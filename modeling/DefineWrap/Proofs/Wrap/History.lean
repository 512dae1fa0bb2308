/-
What a table of dependencies answers over all the calls that are made on it.

A table is made once and then called many times, to give a slot to a module or to bind a local
name. It is used in place: a call that fails half-way leaves the table as its steps have left it.
So binding is taken here step by step (`Dependencies.bindInPlace`), and that a name is refused
before anything is entered is a result and no convention.

The calls and their answers are written down (`History`). What the log says of the table is an
invariant that one call preserves (`History.Consistent.after`): the modules are those of the
calls that were answered, in the order of first use, and every slot that has been handed out
still is the place of its module. Modules are only ever put at the end, so no slot moves.
-/
import DefineWrap.Proofs.Wrap.Imports
import Mathlib.Data.List.Induction

set_option autoImplicit false

namespace DefineWrap

namespace Dependencies

section Steps

variable (table : Dependencies) (localName specifier : String) (imported : Imported)

/-! ## Slots -/

/-- Giving a slot puts a module at the end at most, so the names before are a prefix of those
after. -/
theorem specifiers_mono_register :
    table.specifiers <+: (table.register specifier).2.specifiers := by
  rw [specifiers_register]
  split
  · exact List.prefix_refl _
  · exact List.prefix_append _ _

/-- The slot of a module is its place in the table that the call has left, whether it is a new one
or not. -/
theorem getElem?_register :
    (table.register specifier).2.specifiers[(table.register specifier).1]? = some specifier := by
  by_cases hmem : specifier ∈ table.specifiers
  · have hplace := List.idxOf_lt_length_iff.2 hmem
    rw [register_of_mem hmem, List.getElem?_eq_getElem hplace, List.getElem_idxOf hplace]
  · rw [register, List.idxOf?_eq_none_iff.2 hmem]
    exact List.getElem?_concat_length

/-! ## Binding in place -/

/-- Binds a local name on a table in place. Each step finds the table that the steps before it
have left, and a failure takes nothing back. -/
def bindInPlace : ExceptT WrapError (StateM Dependencies) Binding := do
  let table ← get
  if table.bindings.any (·.localName = localName) then
    throw (.duplicateBinding localName)
  let slot ← modifyGet fun table => table.register specifier
  let binding : Binding := ⟨localName, slot, imported⟩
  modify fun table => { table with bindings := table.bindings ++ [binding] }
  return binding

/-- Binding in place is binding, and the table stays if the name is refused. The steps of the former
are read off one after the other, with the table that each of them finds. -/
theorem run_bindInPlace :
    (bindInPlace localName specifier imported).run.run table =
      match table.bind localName specifier imported with
      | .ok (binding, next) => (.ok binding, next)
      | .error error => (.error error, table) := by
  have hget : (get : ExceptT WrapError (StateM Dependencies) Dependencies).run.run table =
      (.ok table, table) := rfl
  rw [bindInPlace, ExceptT.run_bind, StateT.run_bind, hget, bind]
  by_cases hbound : table.bindings.any (·.localName = localName) = true
  · rw [if_pos hbound]
    change StateT.run (ExceptT.run (if _ then _ else _)) table = _
    rw [if_pos hbound]
    rfl
  · rw [if_neg hbound]
    change StateT.run (ExceptT.run (if _ then _ else _)) table = _
    rw [if_neg hbound]
    rfl

end Steps

/-! ## Calls and answers -/

/-- A call of one of the two operations of a table. Any list of them can be made, so the calls of a
run are a special case. -/
inductive Call where
  | register (specifier : String)
  | bind (localName specifier : String) (imported : Imported)
  deriving DecidableEq, Repr

/-- What a call is answered. A refusal is an answer as well, since the table can be called again
after it. -/
inductive Answer where
  | slot (slot : Nat)
  | bound (binding : Binding)
  | refused (error : WrapError)
  deriving DecidableEq, Repr

namespace Call

/-- The module that a call names. Both operations name one, though a refused call has no use for
it. -/
def specifier : Call → String
  | .register specifier => specifier
  | .bind _ specifier _ => specifier

/-- Makes a call on a table. A refusal is made an answer, and what has been done to the table until
then stays done. -/
def perform : Call → StateM Dependencies Answer
  | .register specifier => do
    let slot ← modifyGet fun table => table.register specifier
    return .slot slot
  | .bind localName specifier imported => do
    match ← (bindInPlace localName specifier imported).run with
    | .ok binding => return .bound binding
    | .error error => return .refused error

end Call

/-- Binding in a call is binding, and the table stays if the name is refused. -/
theorem Call.perform_bind (table : Dependencies) (localName specifier : String)
    (imported : Imported) :
    (Call.bind localName specifier imported).perform.run table =
      match table.bind localName specifier imported with
      | .ok (binding, next) => (.bound binding, next)
      | .error error => (.refused error, table) := by
  have hrun := run_bindInPlace table localName specifier imported
  rw [perform, StateT.run_bind, hrun]
  cases table.bind localName specifier imported <;> rfl

/-- The slot that an answer hands out, by itself or inside a binding. -/
def Answer.slot? : Answer → Option Nat
  | .slot place => some place
  | .bound binding => some binding.slot
  | .refused _ => none

/-- The module of a call that has been answered and not refused. Only such a call enters its
module. -/
def usedSpecifier? : Call × Answer → Option String
  | (_, .refused _) => none
  | (call, _) => some call.specifier

/-- The local name of a call that has bound it. -/
def boundName? : Call × Answer → Option String
  | (.bind localName _ _, .bound _) => some localName
  | _ => none

/-- The calls on a table so far, each with its answer, and the table after them. The table is kept
beside the log, so that what the log says of it is a statement and not a definition. -/
structure History where
  log : List (Call × Answer)
  table : Dependencies

namespace History

/-- A new table, on which nothing has been called yet. -/
def start : History := ⟨[], .empty⟩

/-- The history with one more call, its answer and the table after it. -/
def noted (history : History) (call : Call) (answer : Answer) (table : Dependencies) : History :=
  ⟨history.log ++ [(call, answer)], table⟩

/-- The history after one more call, which is made on the table that the calls before have left. -/
def after (history : History) (call : Call) : History :=
  let (answer, table) := call.perform.run history.table
  history.noted call answer table

/-- The history of some calls on a new table, in their order. -/
def ofCalls (calls : List Call) : History := calls.foldl after start

/-- The modules of the calls that were not refused, in the order of the calls and with
repetitions. -/
def used (history : History) : List String := history.log.filterMap usedSpecifier?

/-- The local names that have been bound, in the order of the calls. That none is there twice
follows from the answers. -/
def boundNames (history : History) : List String := history.log.filterMap boundName?

/-- What the log says of the table: its modules are those that were used, without repetitions, its
names are those that were bound, and every slot that has been handed out still is right. -/
structure Consistent (history : History) : Prop where
  specifiers : history.table.specifiers = history.used.eraseDups
  names : history.table.bindings.map (·.localName) = history.boundNames
  /-- A slot that has been handed out is the place of its module. -/
  slots : ∀ entry ∈ history.log, ∀ slot ∈ entry.2.slot?,
    history.table.specifiers[slot]? = some entry.1.specifier

variable {history : History}

/-! ## One call -/

/-- A call for a slot is never refused, and its answer is the slot. -/
theorem after_register (history : History) (specifier : String) :
    history.after (.register specifier) =
      history.noted (.register specifier) (.slot (history.table.register specifier).1)
        (history.table.register specifier).2 := rfl

/-- A local name is refused if it has been bound, and then the table stays. Otherwise the module
gets its slot and the binding is put last. -/
theorem after_bind (history : History) (localName specifier : String) (imported : Imported) :
    history.after (.bind localName specifier imported) =
      if history.table.bindings.any (·.localName = localName) then
        history.noted (.bind localName specifier imported)
          (.refused (.duplicateBinding localName)) history.table
      else
        history.noted (.bind localName specifier imported)
          (.bound ⟨localName, (history.table.register specifier).1, imported⟩)
          { (history.table.register specifier).2 with
            bindings := (history.table.register specifier).2.bindings ++
              [Binding.mk localName (history.table.register specifier).1 imported] } := by
  rw [after, Call.perform_bind, Dependencies.bind]
  by_cases hbound : history.table.bindings.any (·.localName = localName) = true
  · rw [if_pos hbound, if_pos hbound]
  · rw [if_neg hbound, if_neg hbound]

/-- A slot that has been handed out stays the place of its module when the table grows, since it
grows at its end only. -/
theorem Consistent.slots_mono (h : history.Consistent) {specifiers : List String}
    (hgrows : history.table.specifiers <+: specifiers) :
    ∀ entry ∈ history.log, ∀ slot ∈ entry.2.slot?,
      specifiers[slot]? = some entry.1.specifier := by
  intro entry hentry slot hslot
  obtain ⟨more, rfl⟩ := hgrows
  have hplace := h.slots entry hentry slot hslot
  rw [List.getElem?_append_left (List.getElem?_eq_some_iff.1 hplace).1]
  exact hplace

/-- A name is in the table if a call has bound it. The refusal of a name can so be stated by the log
alone. -/
theorem Consistent.any_bindings (h : history.Consistent) (localName : String) :
    history.table.bindings.any (·.localName = localName) = true ↔
      localName ∈ history.boundNames := by
  rw [← h.names, List.any_eq_true, List.mem_map]
  simp

/-- A call adds its module to those that were used, unless it has been refused. -/
theorem used_noted (call : Call) (answer : Answer) (table : Dependencies) :
    (history.noted call answer table).used =
      history.used ++ (usedSpecifier? (call, answer)).toList := by
  rw [used, noted, List.filterMap_append, used, List.filterMap_cons]
  cases usedSpecifier? (call, answer) <;> rfl

/-- A call adds its local name to those that were bound, if it has bound one. -/
theorem boundNames_noted (call : Call) (answer : Answer) (table : Dependencies) :
    (history.noted call answer table).boundNames =
      history.boundNames ++ (boundName? (call, answer)).toList := by
  rw [boundNames, noted, List.filterMap_append, boundNames, List.filterMap_cons]
  cases boundName? (call, answer) <;> rfl

/-- A call that is refused is noted, and the table stays. Its module does not count as used. -/
theorem Consistent.refused (h : history.Consistent) (call : Call) (error : WrapError) :
    (history.noted call (.refused error) history.table).Consistent := by
  have hname : boundName? (call, .refused error) = none := by cases call <;> rfl
  refine ⟨?_, ?_, List.forall_mem_append.2 ⟨h.slots, ?_⟩⟩
  · rw [used_noted]
    exact h.specifiers.trans (congrArg List.eraseDups (List.append_nil _).symm)
  · rw [boundNames_noted, hname]
    exact h.names.trans (List.append_nil _).symm
  · exact List.forall_mem_singleton.2 fun _ hnone => absurd hnone (Option.not_mem_none _)

/-- A call that is not refused puts its module into the table, and its answer has the slot. Both
operations are cases of this, since they differ in the names that are bound only. -/
theorem Consistent.answered (h : history.Consistent) {call : Call} {answer : Answer}
    (hused : usedSpecifier? (call, answer) = some call.specifier)
    (hslot : answer.slot? = some (history.table.register call.specifier).1) {table : Dependencies}
    (hspecifiers : table.specifiers = (history.table.register call.specifier).2.specifiers)
    (hnames : table.bindings.map (·.localName) =
      history.boundNames ++ (boundName? (call, answer)).toList) :
    (history.noted call answer table).Consistent := by
  refine ⟨?_, hnames.trans (boundNames_noted call answer table).symm,
    List.forall_mem_append.2 ⟨?_, List.forall_mem_singleton.2 fun slot hmem => ?_⟩⟩
  · rw [used_noted, hused, Option.toList_some, Wrapping.eraseDups_concat]
    change table.specifiers = _
    rw [hspecifiers, specifiers_register, h.specifiers]
  · refine h.slots_mono ?_
    change _ <+: table.specifiers
    rw [hspecifiers]
    exact specifiers_mono_register _ _
  · obtain rfl : (history.table.register call.specifier).1 = slot :=
      Option.some.inj (hslot.symm.trans hmem)
    change table.specifiers[_]? = _
    rw [hspecifiers]
    exact getElem?_register _ _

/-- **One call preserves what the log says of the table.** It is the step of every statement about
all calls. -/
theorem Consistent.after (h : history.Consistent) (call : Call) :
    (history.after call).Consistent := by
  cases call with
  | register specifier =>
    rw [after_register]
    refine h.answered rfl rfl rfl ?_
    rw [bindings_register, h.names]
    exact (List.append_nil _).symm
  | bind localName specifier imported =>
    rw [after_bind]
    split
    · exact h.refused _ _
    · refine h.answered rfl rfl rfl ?_
      rw [List.map_append, bindings_register, h.names]
      rfl

theorem consistent_start : start.Consistent :=
  ⟨rfl, rfl, fun _ hmem => absurd hmem List.not_mem_nil⟩

/-- Whatever is called, the log says this of the table. By induction on the calls, from an arbitrary
history on. -/
theorem consistent_ofCalls (calls : List Call) : (ofCalls calls).Consistent := by
  suffices h : ∀ history : History, history.Consistent → (calls.foldl after history).Consistent from
    h start consistent_start
  induction calls with
  | nil => exact fun _ h => h
  | cons call calls ih => exact fun history h => ih _ (h.after call)

/-- The history of some calls and one more is the history of these after that one. -/
theorem ofCalls_concat (calls : List Call) (call : Call) :
    ofCalls (calls ++ [call]) = (ofCalls calls).after call := List.foldl_concat ..

/-- The log has every call once, in the order in which they were made. -/
theorem map_fst_log (calls : List Call) : (ofCalls calls).log.map Prod.fst = calls := by
  induction calls using List.reverseRecOn with
  | nil => rfl
  | append_singleton calls call ih =>
    rw [ofCalls_concat]
    change ((ofCalls calls).log ++ [(call, _)]).map Prod.fst = calls ++ [call]
    rw [List.map_append, ih, List.map_singleton]

/-- **What a table answers over all its calls.** Its modules are distinct, and they are those of
the calls that were not refused, in the order of first use. Every slot that has been handed out
is the place of its module. A local name is refused exactly if a call has bound it, and then the
table stays as it is. -/
theorem ofCalls_answers (calls : List Call) :
    let history := ofCalls calls
    history.log.map Prod.fst = calls ∧
    history.table.specifiers.Nodup ∧
    history.table.specifiers = history.used.eraseDups ∧
    (∀ entry ∈ history.log, ∀ slot ∈ entry.2.slot?,
      history.table.specifiers[slot]? = some entry.1.specifier) ∧
    ∀ localName specifier imported,
      let call := Call.bind localName specifier imported
      if localName ∈ history.boundNames then
        history.table.bind localName specifier imported = .error (.duplicateBinding localName) ∧
        ofCalls (calls ++ [call]) =
          history.noted call (.refused (.duplicateBinding localName)) history.table
      else
        ∃ slot next,
          history.table.bind localName specifier imported =
            .ok (⟨localName, slot, imported⟩, next) ∧
          ofCalls (calls ++ [call]) =
            history.noted call (.bound ⟨localName, slot, imported⟩) next := by
  intro history
  have h : history.Consistent := consistent_ofCalls calls
  refine ⟨map_fst_log calls, ?_, h.specifiers, h.slots, fun localName specifier imported => ?_⟩
  · rw [h.specifiers]
    exact Wrapping.nodup_eraseDups _
  · dsimp only
    rw [ofCalls_concat, after_bind, Dependencies.bind]
    split
    next hbound =>
      have hname := (h.any_bindings localName).2 hbound
      exact ⟨if_pos hname, if_pos hname⟩
    next hbound =>
      have hname := mt (h.any_bindings localName).1 hbound
      exact ⟨_, _, if_neg hname, if_neg hname⟩

/-- A module that only a refused call names gets no slot. -/
example : (ofCalls [.bind "a" "./m" .default, .bind "a" "./n" .everything]).table.specifiers =
    ["./m"] := by decide

end History

end Dependencies

end DefineWrap
