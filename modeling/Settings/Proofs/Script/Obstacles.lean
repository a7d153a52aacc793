import Settings.Proofs.Script.Stringified

/-!
# What writing a script value throws

Two kinds of parts throw when a script value is written: an integer of any size and an object
that raises something. An object that offers another value stands aside for it, once; what is
offered by what was offered is not looked at. The parts that throw are listed here in the order
in which they are met, without writing anything. Writing a value throws the first of them, as
it is, and has a text or nothing when there is none.
-/

namespace Settings.Script

open Text (Units)

mutual

/-- What writing a value would throw, part by part, in the order of its parts. `offered` says
that the value was offered by another one in its place. -/
def Value.obstacles (offered : Bool) : Value → List Value
  | .bigint _ => [bigintError]
  | .array items => obstaclesOfItems items
  | .object properties => obstaclesOfProperties properties
  | .standIn value => if offered then [] else value.obstacles true
  | .raising thrown => if offered then [] else [thrown]
  | _ => []

/-- What writing items would throw. -/
def obstaclesOfItems : List Value → List Value
  | [] => []
  | item :: rest => item.obstacles false ++ obstaclesOfItems rest

/-- What writing the values of properties would throw. -/
def obstaclesOfProperties : List (Units × Value) → List Value
  | [] => []
  | (_, value) :: rest => value.obstacles false ++ obstaclesOfProperties rest

end

/-- What was written throws the first of the obstacles, and nothing when there is none. -/
def ThrowsFirst {α : Type} (written : Except Value α) (obstacles : List Value) : Prop :=
  ∀ thrown, written = .error thrown ↔ obstacles.head? = some thrown

/-- What is written at once throws nothing. -/
theorem throwsFirst_ok {α : Type} (x : α) : ThrowsFirst (.ok x) [] := by
  intro thrown
  simp only [reduceCtorEq, List.head?_nil]

/-- What throws at once is the only obstacle. -/
theorem throwsFirst_error {α : Type} (thrown : Value) :
    ThrowsFirst (.error thrown : Except Value α) [thrown] := by
  intro other
  simp only [Except.error.injEq, List.head?_cons, Option.some.injEq]

/-- Where something was written there was no obstacle. -/
theorem ThrowsFirst.eq_nil {α : Type} {x : α} {obstacles : List Value}
    (h : ThrowsFirst (.ok x) obstacles) : obstacles = [] := by
  cases obstacles with
  | nil => rfl
  | cons met rest =>
    have hthrown : (.ok x : Except Value α) = .error met := (h met).mpr List.head?_cons
    simp only [reduceCtorEq] at hthrown

/-- Of two things that are written one after the other the first throws before the second. -/
theorem ThrowsFirst.bind {α β : Type} {first : Except Value α} {next : α → Except Value β}
    {before after : List Value} (h : ThrowsFirst first before)
    (hnext : ∀ x, first = .ok x → ThrowsFirst (next x) after) :
    ThrowsFirst (first >>= next) (before ++ after) := by
  intro thrown
  cases hfirst : first with
  | error met =>
    have hhead : before.head? = some met := (h met).mp hfirst
    have hwhole : (before ++ after).head? = some met := by
      rw [List.head?_append, hhead, Option.some_or]
    have hbind : ((.error met : Except Value α) >>= next) = .error met := rfl
    simp only [hbind, hwhole, Except.error.injEq, Option.some.injEq]
  | ok x =>
    rw [hfirst] at h
    rw [h.eq_nil, List.nil_append]
    exact hnext x hfirst thrown

/-- What follows without throwing adds no obstacle. -/
theorem ThrowsFirst.map {α β : Type} {first : Except Value α} {obstacles : List Value}
    (h : ThrowsFirst first obstacles) {next : α → Except Value β}
    (hnext : ∀ x, ∃ y, next x = .ok y) : ThrowsFirst (first >>= next) obstacles := by
  have hbind : ThrowsFirst (first >>= next) (obstacles ++ []) := by
    refine h.bind fun x _ => ?_
    obtain ⟨y, hy⟩ := hnext x
    rw [hy]
    exact throwsFirst_ok y
  simpa only [List.append_nil] using hbind

/-- Items throw what the first of them throws that throws. -/
theorem throwsFirst_items {items : List Value}
    (h : ∀ v ∈ items, ∀ offered, ThrowsFirst (textOf offered v) (v.obstacles offered)) :
    ThrowsFirst (textsOfItems items) (obstaclesOfItems items) := by
  induction items with
  | nil => exact throwsFirst_ok []
  | cons v vs ih =>
    obtain ⟨hv, hvs⟩ := List.forall_mem_cons.mp h
    rw [textsOfItems, obstaclesOfItems]
    exact (hv false).bind fun part _ => (ih hvs).map fun parts => ⟨_, rfl⟩

/-- Properties throw what the first of their values throws that throws. -/
theorem throwsFirst_properties {properties : List (Units × Value)}
    (h : ∀ p ∈ properties, ∀ offered, ThrowsFirst (textOf offered p.2) (p.2.obstacles offered)) :
    ThrowsFirst (textsOfProperties properties) (obstaclesOfProperties properties) := by
  induction properties with
  | nil => exact throwsFirst_ok []
  | cons p ps ih =>
    obtain ⟨key, value⟩ := p
    obtain ⟨hv, hps⟩ := List.forall_mem_cons.mp h
    rw [textsOfProperties, obstaclesOfProperties]
    refine (hv false).bind fun part _ => (ih hps).map fun parts => ?_
    cases part with
    | none => exact ⟨_, rfl⟩
    | some text => exact ⟨_, rfl⟩

/-- Writing a value throws the first of its obstacles. -/
theorem throwsFirst_textOf (v : Value) :
    ∀ offered, ThrowsFirst (textOf offered v) (v.obstacles offered) := by
  induction v using Value.induct with
  | undefined | null | number | string | symbol | function | error =>
    intro offered
    simpa only [textOf, Value.obstacles] using throwsFirst_ok _
  | bool b =>
    intro offered
    cases b <;> simpa only [textOf, Value.obstacles] using throwsFirst_ok _
  | bigint n =>
    intro offered
    simpa only [textOf, Value.obstacles] using throwsFirst_error bigintError
  | array items ih =>
    intro offered
    rw [textOf, Value.obstacles]
    exact (throwsFirst_items ih).map fun parts => ⟨_, rfl⟩
  | object properties ih =>
    intro offered
    rw [textOf, Value.obstacles]
    exact (throwsFirst_properties ih).map fun parts => ⟨_, rfl⟩
  | standIn value ih =>
    intro offered
    rw [textOf, Value.obstacles]
    cases offered with
    | true => exact throwsFirst_ok _
    | false => exact ih true
  | raising thrown =>
    intro offered
    rw [textOf, Value.obstacles]
    cases offered with
    | true => exact throwsFirst_ok _
    | false => exact throwsFirst_error thrown

end Settings.Script
