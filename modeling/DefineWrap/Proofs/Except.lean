/-
Computations that succeed or fail, and loops of them.

A computation stops at its first error, so one that succeeds has succeeded at every step
before. The lemmas take a successful computation apart into its steps.
-/

set_option autoImplicit false

namespace DefineWrap

namespace Except

variable {ε α β σ : Type}

/-- A computation of two steps that succeeds has succeeded in the first one, and the second one has
then succeeded with what came of it. Every monadic function of the program is opened with this
lemma, so no proof has to split its `match` by hand. -/
theorem bind_ok {x : Except ε α} {f : α → Except ε β} {result : β}
    (h : (x >>= f) = .ok result) : ∃ value, x = .ok value ∧ f value = .ok result := by
  cases x with
  | error _ => cases h
  | ok value => exact ⟨value, rfl, h⟩

/-- A result that is only mapped comes from a result. The form of `bind_ok` for a last step that
cannot fail. -/
theorem map_ok {x : Except ε α} {f : α → β} {result : β} (h : x.map f = .ok result) :
    ∃ value, x = .ok value ∧ f value = result := by
  cases x with
  | error _ => cases h
  | ok value => exact ⟨value, rfl, Except.ok.inj h⟩

/-- An error of two steps is that of the first one, or the first one has succeeded and the error is
that of the second. Which of the two it is matters where the cause of an error is looked for, so
nothing about the first step is forgotten in the second case. -/
theorem bind_error {x : Except ε α} {f : α → Except ε β} {error : ε}
    (h : (x >>= f) = .error error) :
    x = .error error ∨ ∃ value, x = .ok value ∧ f value = .error error := by
  cases x with
  | error other =>
    cases h
    exact .inl rfl
  | ok value => exact .inr ⟨value, rfl, h⟩

/-- The text of an error is dropped step by step. Two readers that fail with different texts are
compared by this: it is enough that each step of one has a result where the step of the other has
it. -/
theorem toOption_bind (x : Except ε α) (f : α → Except ε β) :
    (x >>= f).toOption = x.toOption.bind fun value => (f value).toOption := by
  cases x <;> rfl

/-- Only a success is left when errors are dropped, and it is left as it is. -/
theorem toOption_eq_some_iff {x : Except ε α} {value : α} :
    x.toOption = some value ↔ x = .ok value := by
  cases x <;> simp [Except.toOption]

/-- A loop that succeeds has succeeded in its first round, and from there on with the items that are
left. What every induction over a loop begins with. -/
theorem foldlM_cons_ok {f : σ → α → Except ε σ} {state final : σ} {item : α} {items : List α}
    (h : (item :: items).foldlM f state = .ok final) :
    ∃ next, f state item = .ok next ∧ items.foldlM f next = .ok final := by
  rw [List.foldlM_cons] at h
  exact bind_ok h

/-- A loop that succeeds has succeeded up to any point in it and from there on. So the state at the
point can be named, and a round in the middle of a loop can be looked at alone. -/
theorem foldlM_append_ok {f : σ → α → Except ε σ} {state final : σ} {before after : List α}
    (h : (before ++ after).foldlM f state = .ok final) :
    ∃ next, before.foldlM f state = .ok next ∧ after.foldlM f next = .ok final := by
  rw [List.foldlM_append] at h
  exact bind_ok h

/-- A loop cannot fail if none of its rounds can, whatever the state is that a round begins with.
The state has to be any at all, since the rounds before have changed it. -/
theorem exists_foldlM_ok {f : σ → α → Except ε σ} {items : List α}
    (h : ∀ state, ∀ item ∈ items, ∃ next, f state item = .ok next) (state : σ) :
    ∃ final, items.foldlM f state = .ok final := by
  induction items generalizing state with
  | nil => exact ⟨state, rfl⟩
  | cons item rest ih =>
    obtain ⟨next, hnext⟩ := h state item List.mem_cons_self
    obtain ⟨final, hfinal⟩ := ih (fun other x hmem => h other x (List.mem_cons_of_mem _ hmem)) next
    exact ⟨final, by rw [List.foldlM_cons, hnext]; exact hfinal⟩

/-- A loop that fails has failed in one of its rounds. The rounds before have succeeded, and their
states are named: an error is a matter of what had been done by then. -/
theorem foldlM_error {f : σ → α → Except ε σ} {items : List α} {state : σ} {error : ε}
    (h : items.foldlM f state = .error error) :
    ∃ before item after middle, items = before ++ item :: after ∧
      before.foldlM f state = .ok middle ∧ f middle item = .error error := by
  induction items generalizing state with
  | nil => cases h
  | cons item rest ih =>
    rw [List.foldlM_cons] at h
    rcases bind_error h with h | ⟨next, hnext, h⟩
    · exact ⟨[], item, rest, state, rfl, rfl, h⟩
    · obtain ⟨before, other, after, middle, rfl, hbefore, herror⟩ := ih h
      exact ⟨item :: before, other, after, middle, rfl,
        by rw [List.foldlM_cons, hnext]; exact hbefore, herror⟩

/-- What every round of a loop preserves holds after the loop. A round may use that its item is one
of the list, which a statement about all states and all items could not say. -/
theorem foldlM_invariant {f : σ → α → Except ε σ} {items : List α} (holds : σ → Prop)
    (step : ∀ state item next, item ∈ items → holds state → f state item = .ok next → holds next)
    {state final : σ} (hstate : holds state) (h : items.foldlM f state = .ok final) :
    holds final := by
  induction items generalizing state with
  | nil =>
    cases h
    exact hstate
  | cons item items ih =>
    obtain ⟨next, hnext, hrest⟩ := foldlM_cons_ok h
    exact ih (fun state item next hmem => step state item next (List.mem_cons_of_mem _ hmem))
      (step state item next List.mem_cons_self hstate hnext) hrest

/-- A loop that reads each item before it uses it could have read them all before. What is read does
not depend on the state, so reading and using come apart, and the rounds can be described with what
has been read. -/
theorem foldlM_read_ok {f : σ → α → Except ε σ} {read : α → Except ε β}
    {round : σ → β → Except ε σ} (hf : ∀ state item, f state item = read item >>= round state)
    {items : List α} {state final : σ} (h : items.foldlM f state = .ok final) :
    ∃ values, items.mapM read = .ok values ∧ values.foldlM round state = .ok final := by
  induction items generalizing state with
  | nil => exact ⟨[], rfl, h⟩
  | cons item items ih =>
    obtain ⟨next, hnext, hrest⟩ := foldlM_cons_ok h
    rw [hf] at hnext
    obtain ⟨value, hvalue, hround⟩ := bind_ok hnext
    obtain ⟨values, hvalues, hfold⟩ := ih hrest
    refine ⟨value :: values, ?_, ?_⟩
    · rw [List.mapM_cons, hvalue, hvalues]
      rfl
    · rw [List.foldlM_cons, hround]
      exact hfold

/-- The results of reading a list are the result of its first item and those of the rest. All the
other lemmas about reading a list are inductions with this one. -/
theorem mapM_cons_ok {f : α → Except ε β} {item : α} {items : List α} {results : List β}
    (h : (item :: items).mapM f = .ok results) :
    ∃ result rest, f item = .ok result ∧ items.mapM f = .ok rest ∧ results = result :: rest := by
  rw [List.mapM_cons] at h
  obtain ⟨result, hresult, h⟩ := bind_ok h
  obtain ⟨rest, hrest, h⟩ := bind_ok h
  cases h
  exact ⟨result, rest, hresult, hrest, rfl⟩

/-- Two lists that are read together could have been read apart, and the results stand in the same
order. -/
theorem mapM_append_ok {f : α → Except ε β} {first second : List α} {results : List β}
    (h : (first ++ second).mapM f = .ok results) :
    ∃ before after, first.mapM f = .ok before ∧ second.mapM f = .ok after ∧
      results = before ++ after := by
  rw [List.mapM_append] at h
  obtain ⟨before, hbefore, h⟩ := bind_ok h
  obtain ⟨after, hafter, h⟩ := bind_ok h
  cases h
  exact ⟨before, after, hbefore, hafter, rfl⟩

/-- What can be read from an item is among the results. It does not matter at which place the item
is, only that reading it has this result. -/
theorem mem_mapM_ok {f : α → Except ε β} {items : List α} {results : List β}
    (h : items.mapM f = .ok results) {item : α} {result : β} (hmem : item ∈ items)
    (hresult : f item = .ok result) : result ∈ results := by
  obtain ⟨before, after, rfl⟩ := List.append_of_mem hmem
  obtain ⟨first, second, -, hsecond, rfl⟩ := mapM_append_ok h
  obtain ⟨other, rest, hother, -, rfl⟩ := mapM_cons_ok hsecond
  rw [hresult] at hother
  cases hother
  exact List.mem_append_right _ List.mem_cons_self

/-- Every result has been read from an item of the list. The other direction of `mem_mapM_ok`:
together they say what is among the results without their order. -/
theorem mem_of_mapM_ok {f : α → Except ε β} {items : List α} {results : List β}
    (h : items.mapM f = .ok results) {result : β} (hmem : result ∈ results) :
    ∃ item ∈ items, f item = .ok result := by
  induction items generalizing results with
  | nil =>
    cases h
    cases hmem
  | cons item items ih =>
    obtain ⟨first, rest, hfirst, hrest, rfl⟩ := mapM_cons_ok h
    rcases List.mem_cons.1 hmem with rfl | hmem
    · exact ⟨item, List.mem_cons_self, hfirst⟩
    · obtain ⟨other, hother, hresult⟩ := ih hrest hmem
      exact ⟨other, List.mem_cons_of_mem _ hother, hresult⟩

/-- Every item can be read from a list that can be read, since one failure would have ended the
reading of them all. -/
theorem exists_of_mapM_ok {f : α → Except ε β} {items : List α} {results : List β}
    (h : items.mapM f = .ok results) {item : α} (hmem : item ∈ items) :
    ∃ result, f item = .ok result := by
  obtain ⟨before, after, rfl⟩ := List.append_of_mem hmem
  obtain ⟨first, second, -, hsecond, -⟩ := mapM_append_ok h
  obtain ⟨result, -, hresult, -⟩ := mapM_cons_ok hsecond
  exact ⟨result, hresult⟩

/-- What is the same for an item and for what is read from it is the same for all. A list that is
computed from the items can so be computed from the results, in the same order. -/
theorem flatMap_of_mapM_ok {γ : Type} {f : α → Except ε β} {g : α → List γ} {k : β → List γ}
    {items : List α} {results : List β} (h : items.mapM f = .ok results)
    (heq : ∀ item result, f item = .ok result → g item = k result) :
    items.flatMap g = results.flatMap k := by
  induction items generalizing results with
  | nil =>
    cases h
    rfl
  | cons item items ih =>
    obtain ⟨first, rest, hfirst, hrest, rfl⟩ := mapM_cons_ok h
    rw [List.flatMap_cons, List.flatMap_cons, heq item first hfirst, ih hrest]

/-- What is read from related items is related. Used for lists that are in order, or that have no
repeats, before they are read. -/
theorem pairwise_of_mapM_ok {f : α → Except ε β} {items : List α} {results : List β}
    {related : α → α → Prop} {related' : β → β → Prop} (h : items.mapM f = .ok results)
    (hitems : items.Pairwise related)
    (hread : ∀ item ∈ items, ∀ other ∈ items, related item other → ∀ result result',
      f item = .ok result → f other = .ok result' → related' result result') :
    results.Pairwise related' := by
  induction items generalizing results with
  | nil =>
    cases h
    exact .nil
  | cons item items ih =>
    obtain ⟨first, rest, hfirst, hrest, rfl⟩ := mapM_cons_ok h
    obtain ⟨hitem, hitems⟩ := List.pairwise_cons.1 hitems
    refine .cons (fun result hresult => ?_) (ih hrest hitems fun item hmem other hother =>
      hread item (List.mem_cons_of_mem _ hmem) other (List.mem_cons_of_mem _ hother))
    obtain ⟨other, hother, hresult⟩ := mem_of_mapM_ok hrest hresult
    exact hread item List.mem_cons_self other (List.mem_cons_of_mem _ hother)
      (hitem other hother) first result hfirst hresult

/-- Two ways to read that agree on the items of a list read the same from it. They may differ on
everything else, so an induction hypothesis about smaller values is enough. -/
theorem mapM_congr {f g : α → Except ε β} {items : List α}
    (h : ∀ item ∈ items, f item = g item) : items.mapM f = items.mapM g := by
  induction items with
  | nil => rfl
  | cons item items ih =>
    rw [List.forall_mem_cons] at h
    rw [List.mapM_cons, List.mapM_cons, h.1, ih h.2]

/-- Reading that cannot fail for any item of the list is a map. Here a loop with errors becomes one
without them. -/
theorem mapM_eq_ok {f : α → Except ε β} {g : α → β} {items : List α}
    (h : ∀ item ∈ items, f item = .ok (g item)) : items.mapM f = .ok (items.map g) := by
  induction items with
  | nil => rfl
  | cons item items ih =>
    rw [List.forall_mem_cons] at h
    rw [List.mapM_cons, h.1, ih h.2]
    rfl

/-- A loop whose rounds look at nothing but their own item: it ends with the first error of an item,
in the order of the items, or with all the results. -/
theorem mapM_eq_elim {f : α → Except ε β} {error? : α → Option ε} {g : α → β} {items : List α}
    (h : ∀ item ∈ items, f item = (error? item).elim (.ok (g item)) .error) :
    items.mapM f = (items.findSome? error?).elim (.ok (items.map g)) .error := by
  induction items with
  | nil => rfl
  | cons item rest ih =>
    rw [List.forall_mem_cons] at h
    rw [List.mapM_cons, List.findSome?_cons, h.1, ih h.2]
    cases error? item with
    | some error => rfl
    | none => cases rest.findSome? error? <;> rfl

/-! ## Two computations -/

/-- Two computations fail with the same error, or both succeed, with related results. With equality
as the relation this would be equality of the two; here the states that they go through may differ
for as long as they run. -/
inductive Both (related : α → β → Prop) : Except ε α → Except ε β → Prop
  | error (error : ε) : Both related (.error error) (.error error)
  | ok {first : α} {second : β} (h : related first second) : Both related (.ok first) (.ok second)

namespace Both

variable {γ δ : Type} {related : α → β → Prop} {x : Except ε α} {y : Except ε β}

/-- Two computations with related results go on to be alike if all that follows is alike from
related results. One step of a proof that two programs do the same. -/
theorem bind {related' : γ → δ → Prop} {f : α → Except ε γ} {g : β → Except ε δ}
    (h : Both related x y)
    (hnext : ∀ first second, related first second → Both related' (f first) (g second)) :
    Both related' (x >>= f) (y >>= g) := by
  cases h with
  | error error => exact .error error
  | ok h => exact hnext _ _ h

/-- Two computations become equal once what follows does not see in which of the related results
they were. With this a difference that was carried along is forgotten. -/
theorem bind_eq {f : α → Except ε γ} {g : β → Except ε γ} (h : Both related x y)
    (hnext : ∀ first second, related first second → f first = g second) : x >>= f = y >>= g := by
  cases h with
  | error error => rfl
  | ok h => exact hnext _ _ h

/-- Two loops over the same items, if every round keeps their states related. The states may be
different all the time, as long as no round makes an error of the difference. -/
theorem foldlM {f : σ → α → Except ε σ} {related : σ → σ → Prop} {items : List α}
    (step : ∀ item ∈ items, ∀ first second, related first second →
      Both related (f first item) (f second item))
    {first second : σ} (h : related first second) :
    Both related (items.foldlM f first) (items.foldlM f second) := by
  induction items generalizing first second with
  | nil => exact .ok h
  | cons item items ih =>
    rw [List.foldlM_cons, List.foldlM_cons]
    apply (step item List.mem_cons_self first second h).bind
    intro next other hnext
    exact ih (fun item hmem => step item (List.mem_cons_of_mem _ hmem)) hnext

end Both

end Except

end DefineWrap
