import Settings.Proofs.Json.Reread
import Settings.Proofs.Json.Shape

/-!
# How deep a text may nest

A text is read by as many readers as containers may be open, each the reader of
what stands inside the next. The induction is on that number: a value that is
nested no deeper is taken, and a value that is nested deeper is refused, because
some part of it is refused one level further in.
-/

namespace Settings.Json

/-- A scalar is taken at every level. -/
theorem takes_scalar (levels : Nat) {v : Value} (h : v.depth = 0) :
    Takes (nested stored levels) v.text v.reread := by
  intro rest hr
  cases levels with
  | zero => exact value_scalar none h hr
  | succ levels => exact value_scalar (some (nested stored levels)) h hr

/-- A value that is nested no deeper than containers may be open is taken. -/
theorem takes_nested {levels : Nat} {v : Value} (h : v.depth ≤ levels) :
    Takes (nested stored levels) v.text v.reread := by
  induction levels generalizing v with
  | zero => exact takes_scalar 0 (by omega)
  | succ levels ih =>
    cases v with
    | array vs => exact takes_array fun v hv => ih (depth_array_le_iff.mp h v hv)
    | object ms => exact takes_object fun m hm => ih (depth_object_le_iff.mp h m hm)
    | null | bool | number | string => exact takes_scalar _ rfl

/-- A container is refused where none may be open. -/
theorem refuses_container {v : Value} (h : 0 < v.depth) : Refuses (nested stored 0) v.text := by
  intro rest _
  cases v with
  | array vs =>
    cases vs with
    | nil => rw [Value.text]; exact ⟨_, rfl⟩
    | cons v vs => rw [Value.text]; exact ⟨_, rfl⟩
  | object ms =>
    cases ms with
    | nil => rw [Value.text]; exact ⟨_, rfl⟩
    | cons m ms => rw [text_object_cons]; exact ⟨_, rfl⟩
  | null | bool | number | string => exact absurd h (Nat.not_lt_zero _)

/-- A value that is nested deeper than containers may be open is refused. -/
theorem refuses_nested {levels : Nat} {v : Value} (h : levels < v.depth) :
    Refuses (nested stored levels) v.text := by
  induction levels generalizing v with
  | zero => exact refuses_container h
  | succ levels ih =>
    have hpart (w : Value) : (∃ x, Takes (nested stored levels) w.text x) ∨
        Refuses (nested stored levels) w.text := by
      rcases Nat.lt_or_ge levels w.depth with hw | hw
      · exact Or.inr (ih hw)
      · exact Or.inl ⟨_, takes_nested hw⟩
    cases v with
    | array vs =>
      have hex : ∃ v ∈ vs, levels < v.depth := by
        by_contra hc
        push Not at hc
        exact absurd (depth_array_le_iff.mpr hc) (Nat.not_le.mpr h)
      obtain ⟨v, hv, hd⟩ := hex
      exact refuses_array (fun w _ => hpart w) ⟨v, hv, ih hd⟩
    | object ms =>
      have hex : ∃ m ∈ ms, levels < m.2.depth := by
        by_contra hc
        push Not at hc
        exact absurd (depth_object_le_iff.mpr hc) (Nat.not_le.mpr h)
      obtain ⟨m, hm, hd⟩ := hex
      exact refuses_object (fun w _ => hpart w.2) ⟨m, hm, ih hd⟩
    | null | bool | number | string => exact absurd h (Nat.not_lt_zero _)

/-- The text of a value is read as a whole, unless it is nested too deep. -/
theorem whole_text {levels : Nat} {v : Value} (h : v.depth ≤ levels) :
    whole stored levels v.text = .ok v.reread := by
  have ht := takes_nested h [] endsNumber_nil
  rw [List.append_nil] at ht
  rw [whole, ht]
  rfl

/-- The text of a value that is nested too deep is refused as a whole. -/
theorem whole_text_refused {levels : Nat} {v : Value} (h : levels < v.depth) :
    ∃ failure, whole stored levels v.text = .error failure := by
  obtain ⟨failure, hf⟩ := refuses_nested h [] endsNumber_nil
  rw [List.append_nil] at hf
  exact ⟨failure, by rw [whole, hf]; rfl⟩

/-- What is stored is read back as itself up to its doubles, when it is nested
no deeper than stored text may be. -/
theorem decode_encode {v : Value} (h : v.depth ≤ greatestDepth) :
    decode v.encode = .ok v.reread := by
  rw [decode, Value.encode, String.toList_ofList, read, whole_text h]
  rfl

/-- What is nested deeper than stored text may be is not read back. -/
theorem decode_encode_refused {v : Value} (h : greatestDepth < v.depth) :
    ∃ refusal, decode v.encode = .error refusal := by
  obtain ⟨failure, hf⟩ := whole_text_refused h
  exact ⟨_, by rw [decode, Value.encode, String.toList_ofList, read, hf]; rfl⟩

end Settings.Json
