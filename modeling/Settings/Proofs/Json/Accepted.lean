import Settings.Proofs.Json.Row
import Settings.Proofs.Json.Shape

/-!
# What a reading can yield

Whatever text is read as stored, the value is ordered and nested no deeper than
containers could be open. The argument follows the grammar of values once; the
induction is on the number of containers that may be open.
-/

namespace Settings.Json

/-- A value that the reader may yield with so many containers open. -/
structure Value.Within (levels : Nat) (v : Value) : Prop where
  /-- Keys ascend at every level. -/
  ordered : v.Ordered
  /-- No more containers are nested. -/
  depth_le : v.depth ≤ levels

/-- A known word yields the value that it stands for. -/
theorem word_ok {α : Type} {x y : α} {ws text rest : List Char}
    (h : word x ws text = .ok (y, rest)) : y = x := by
  induction ws generalizing text with
  | nil => cases h; rfl
  | cons w ws ih =>
    cases text with
    | nil => cases h
    | cons c text =>
      unfold word at h
      split at h
      · exact ih h
      · cases h

/-- A scalar may be yielded at every level. -/
theorem Value.within_scalar {levels : Nat} {v : Value} (ho : v.Ordered) (hd : v.depth = 0) :
    v.Within levels :=
  ⟨ho, hd ▸ Nat.zero_le levels⟩

/-- A number is yielded as a number. -/
theorem number_ok {v : Value} {text rest : List Char} (h : number stored text = .ok (v, rest)) :
    ∃ n, v = .number n := by
  unfold number at h
  cases hl : literal text with
  | error failure => rw [hl] at h; cases h
  | ok l =>
    rw [hl] at h
    have hn : stored.number l.1 = l.1.number.map .number := rfl
    simp only [bind, Except.bind, hn] at h
    cases hv : l.1.number with
    | error unseen => rw [hv] at h; cases h
    | ok n => rw [hv] at h; cases h; exact ⟨n, rfl⟩

/-- A member yields a value that its reader yields. -/
theorem member_ok {item : Reader Value} {P : Value → Prop}
    (hitem : ∀ text v rest, item text = .ok (v, rest) → P v) (text : List Char)
    (m : String × Value) (rest : List Char) (h : member storedString item text = .ok (m, rest)) :
    P m.2 := by
  unfold member at h
  split at h
  · next text =>
    cases hk : storedString text with
    | error failure => rw [hk] at h; cases h
    | ok k =>
      rw [hk] at h
      simp only [bind, Except.bind] at h
      split at h
      · cases h
      · next next _ =>
        cases hv : item next with
        | error failure => rw [hv] at h; cases h
        | ok v => rw [hv] at h; cases h; exact hitem _ _ _ hv
      · cases h
  · cases h

/-- An array of items that were read. -/
theorem within_items {levels : Nat} {item : Reader Value}
    (hitem : ∀ text v rest, item text = .ok (v, rest) → v.Within levels)
    {text : List Char} {vs : List Value} {rest : List Char}
    (h : items item text = .ok (vs, rest)) : (Value.array vs).Within (levels + 1) := by
  have hall := (enclosed_items item).first_mem hitem h
  constructor
  · rw [Value.Ordered, orderedItems_iff]
    exact fun v hv => (hall v hv).ordered
  · exact depth_array_le_iff.mpr fun v hv => (hall v hv).depth_le

/-- An object of members that were read. -/
theorem within_members {levels : Nat} {item : Reader Value}
    (hitem : ∀ text v rest, item text = .ok (v, rest) → v.Within levels)
    {text : List Char} {ms : List (String × Value)} {rest : List Char}
    (h : members (member storedString item) text = .ok (ms, rest)) :
    (Value.object (Members.ofEntries ms)).Within (levels + 1) := by
  have hall := (enclosed_members (member storedString item)).first_mem
    (member_ok hitem) h
  have hmem : ∀ m ∈ Members.ofEntries ms, m.2.Within levels := fun m hm =>
    hall m (Members.mem_of_mem_ofEntries hm)
  constructor
  · exact ordered_object_iff.mpr ⟨Members.ascending_ofEntries ms, fun m hm => (hmem m hm).ordered⟩
  · exact depth_object_le_iff.mpr fun m hm => (hmem m hm).depth_le

/-- What one value of a text can be: a scalar, or a container whose items or
members were read by the reader of the next level. -/
theorem value_ok {inner : Option (Reader Value)} {text : List Char} {v : Value}
    {rest : List Char} (h : value stored inner text = .ok (v, rest)) :
    (v.Ordered ∧ v.depth = 0) ∨
    (∃ item next vs, inner = some item ∧ items item next = .ok (vs, rest) ∧ v = .array vs) ∨
    (∃ item next ms, inner = some item ∧
      members (member storedString item) next = .ok (ms, rest) ∧
        v = .object (Members.ofEntries ms)) := by
  unfold value at h
  split at h
  · cases h
  · cases word_ok h; exact Or.inl ⟨trivial, rfl⟩
  · cases word_ok h; exact Or.inl ⟨trivial, rfl⟩
  · cases word_ok h; exact Or.inl ⟨trivial, rfl⟩
  · next next _ =>
    cases hs : stored.string next with
    | error failure => rw [hs] at h; cases h
    | ok s => rw [hs] at h; cases h; exact Or.inl ⟨trivial, rfl⟩
  · next next _ =>
    split at h
    · cases h
    · next item =>
      cases hvs : items item next with
      | error failure => rw [hvs] at h; cases h
      | ok vs => rw [hvs] at h; cases h; exact Or.inr (Or.inl ⟨item, next, vs.1, rfl, hvs, rfl⟩)
  · next next _ =>
    split at h
    · cases h
    · next item =>
      have hk : stored.string = storedString := rfl
      rw [hk] at h
      cases hms : members (member storedString item) next with
      | error failure => rw [hms] at h; cases h
      | ok ms => rw [hms] at h; cases h; exact Or.inr (Or.inr ⟨item, next, ms.1, rfl, hms, rfl⟩)
  · split at h
    · obtain ⟨n, rfl⟩ := number_ok h
      exact Or.inl ⟨trivial, rfl⟩
    · cases h

/-- What is read is ordered and nested no deeper than containers may be open. -/
theorem nested_ok {levels : Nat} {text : List Char} {v : Value} {rest : List Char}
    (h : nested stored levels text = .ok (v, rest)) : v.Within levels := by
  induction levels generalizing text v rest with
  | zero =>
    rcases value_ok h with ⟨ho, hd⟩ | ⟨_, _, _, hi, -⟩ | ⟨_, _, _, hi, -⟩
    · exact Value.within_scalar ho hd
    · cases hi
    · cases hi
  | succ levels ih =>
    have hitem : ∀ text v rest, nested stored levels text = .ok (v, rest) → v.Within levels :=
      fun _ _ _ hn => ih hn
    rcases value_ok h with ⟨ho, hd⟩ | ⟨item, _, _, hi, hvs, rfl⟩ | ⟨item, _, _, hi, hms, rfl⟩
    · exact Value.within_scalar ho hd
    · cases hi; exact within_items hitem hvs
    · cases hi; exact within_members hitem hms

/-- What a whole stored text is read as. -/
theorem read_ok {text : List Char} {v : Value} (h : read text = .ok v) :
    v.Within greatestDepth := by
  unfold read whole at h
  cases hn : nested stored greatestDepth text with
  | error failure => rw [hn] at h; cases h
  | ok first =>
    rw [hn] at h
    simp only [bind, Except.bind] at h
    split at h
    · cases h; exact nested_ok hn
    · cases h

/-- What a stored text is decoded as. -/
theorem decode_ok {text : String} {v : Value} (h : decode text = .ok v) :
    v.Within greatestDepth := by
  unfold decode at h
  cases hr : read text.toList with
  | error failure => rw [hr] at h; cases h
  | ok v' => rw [hr] at h; cases h; exact read_ok hr

end Settings.Json
