/-! # Outcomes

The outcome of a step is a value or an error. A chain of steps succeeds exactly if each step of it
does, and it fails only with errors of its steps. Two chains whose steps are alike have outcomes that
are alike.
-/

set_option autoImplicit false

namespace StreamQuery

variable {ε α β : Type}

theorem ok_eq_ok_iff {value result : α} :
    (.ok value : Except ε α) = .ok result ↔ result = value := by
  rw [Except.ok.injEq, eq_comm]

theorem bind_eq_ok_iff {outcome : Except ε α} {next : α → Except ε β} {result : β} :
    (outcome >>= next) = .ok result ↔ ∃ value, outcome = .ok value ∧ next value = .ok result := by
  cases outcome with
  | error error => simp [bind, Except.bind]
  | ok value => simp [bind, Except.bind]

theorem map_eq_ok_iff {outcome : Except ε α} {f : α → β} {result : β} :
    outcome.map f = .ok result ↔ ∃ value, outcome = .ok value ∧ result = f value := by
  cases outcome with
  | error error => simp [Except.map]
  | ok value => simp [Except.map, eq_comm]

theorem map_eq_error_iff {outcome : Except ε α} {f : α → β} {error : ε} :
    outcome.map f = .error error ↔ outcome = .error error := by
  cases outcome with
  | error refused => simp [Except.map]
  | ok value => simp [Except.map]

theorem toOption_eq_some_iff {outcome : Except ε α} {value : α} :
    outcome.toOption = some value ↔ outcome = .ok value := by
  cases outcome with
  | error error => simp [Except.toOption]
  | ok other => simp [Except.toOption]

/-- Every error that an outcome can be has some property. -/
def OnlyFails (allowed : ε → Prop) (outcome : Except ε α) : Prop :=
  ∀ error, outcome = .error error → allowed error

theorem OnlyFails.ok (allowed : ε → Prop) (value : α) :
    OnlyFails allowed (.ok value : Except ε α) := by
  intro error equal
  cases equal

theorem OnlyFails.error {allowed : ε → Prop} {error : ε} (isAllowed : allowed error) :
    OnlyFails allowed (.error error : Except ε α) := by
  intro other equal
  cases equal
  exact isAllowed

theorem OnlyFails.bind {allowed : ε → Prop} {outcome : Except ε α} {next : α → Except ε β}
    (first : OnlyFails allowed outcome)
    (second : ∀ value, outcome = .ok value → OnlyFails allowed (next value)) :
    OnlyFails allowed (outcome >>= next) := by
  cases outcome with
  | error error =>
    intro other equal
    cases equal
    exact first error rfl
  | ok value => exact second value rfl

theorem OnlyFails.map {allowed : ε → Prop} {outcome : Except ε α} (f : α → β)
    (first : OnlyFails allowed outcome) : OnlyFails allowed (outcome.map f) := by
  cases outcome with
  | error error =>
    intro other equal
    cases equal
    exact first error rfl
  | ok value => exact OnlyFails.ok allowed (f value)

theorem OnlyFails.foldlM {allowed : ε → Prop} {step : β → α → Except ε β} (invariant : β → Prop)
    (stepFails : ∀ state, invariant state → ∀ item, OnlyFails allowed (step state item))
    (stepKeeps : ∀ state, invariant state → ∀ item next, step state item = .ok next →
      invariant next)
    (items : List α) {start : β} (holds : invariant start) :
    OnlyFails allowed (items.foldlM step start) := by
  induction items generalizing start with
  | nil => exact OnlyFails.ok allowed start
  | cons item rest ih =>
    rw [List.foldlM_cons]
    apply OnlyFails.bind (stepFails start holds item)
    intro next stepped
    exact ih (stepKeeps start holds item next stepped)

/-! ## Two outcomes -/

/-- Two outcomes are values in one relation, or errors in another. -/
inductive Alike {β' : Type} (sameError : ε → ε → Prop) (related : β → β' → Prop) :
    Except ε β → Except ε β' → Prop where
  | ok {value : β} {value' : β'} (values : related value value') :
      Alike sameError related (.ok value) (.ok value')
  | error {first second : ε} (errors : sameError first second) :
      Alike sameError related (.error first) (.error second)

namespace Alike

variable {α' β' γ δ : Type} {sameError : ε → ε → Prop} {related : α → α' → Prop}
  {relatedNext : β → β' → Prop} {outcome : Except ε α} {outcome' : Except ε α'}

theorem same (reflexive : ∀ error, sameError error error) (outcome : Except ε α) :
    Alike sameError (fun value value' => outcome = .ok value ∧ value' = value) outcome outcome := by
  cases outcome with
  | error error => exact .error (reflexive error)
  | ok value => exact .ok ⟨rfl, rfl⟩

theorem bind {next : α → Except ε β} {next' : α' → Except ε β'}
    (first : Alike sameError related outcome outcome')
    (second : ∀ value value', related value value' →
      Alike sameError relatedNext (next value) (next' value')) :
    Alike sameError relatedNext (outcome >>= next) (outcome' >>= next') := by
  cases first with
  | ok values => exact second _ _ values
  | error errors => exact .error errors

theorem map {f : α → β} {f' : α' → β'} (first : Alike sameError related outcome outcome')
    (second : ∀ value value', related value value' → relatedNext (f value) (f' value')) :
    Alike sameError relatedNext (outcome.map f) (outcome'.map f') := by
  cases first with
  | ok values => exact .ok (second _ _ values)
  | error errors => exact .error errors

theorem imp (alike : Alike sameError related outcome outcome') {further : α → α' → Prop}
    (implies : ∀ value value', outcome = .ok value → outcome' = .ok value' →
      related value value' → further value value') :
    Alike sameError further outcome outcome' := by
  cases alike with
  | ok values => exact .ok (implies _ _ rfl rfl values)
  | error errors => exact .error errors

theorem refl {related : α → α → Prop} (reflexive : ∀ error, sameError error error)
    (reflexiveValue : ∀ value, related value value) (outcome : Except ε α) :
    Alike sameError related outcome outcome := by
  apply imp (same reflexive outcome)
  rintro _ value _ _ ⟨_, rfl⟩
  exact reflexiveValue value

theorem foldlM {step : α → γ → Except ε α} {step' : α' → δ → Except ε α'} (image : γ → δ)
    (steps : ∀ state state', related state state' → ∀ item,
      Alike sameError related (step state item) (step' state' (image item)))
    (items : List γ) {start : α} {start' : α'} (starts : related start start') :
    Alike sameError related (items.foldlM step start) ((items.map image).foldlM step' start') := by
  induction items generalizing start start' with
  | nil => exact .ok starts
  | cons item rest ih =>
    rw [List.map_cons, List.foldlM_cons, List.foldlM_cons]
    apply bind (steps start start' starts item)
    intro state state' states
    exact ih states

end Alike

end StreamQuery
