import Settings.Proofs.Schema.Exact

/-!
# Exact readings of maps

A map under texts is stored as an object with the same keys. The members of an ordered
object ascend, so the entries that are read from them are already in the order in which a
typed map keeps them, and entries in that order are stored as members in theirs.
-/

namespace Settings.Schema

open Json (Value Members bind_ok)

/-- A map under texts is stored as the object of its stored entries. -/
theorem toEntries_ok_iff {entries : List (String × Datum)} {ms : List (String × Value)} :
    Datum.toEntries (entries.map fun e => (.text e.1, e.2)) = .ok ms ↔
      List.Forall₂ (fun e m => m.1 = e.1 ∧ e.2.toValue = .ok m.2) entries ms := by
  induction entries generalizing ms with
  | nil =>
    rw [List.forall₂_nil_left_iff]
    exact ⟨fun h => by cases h; rfl, fun h => by rw [h]; rfl⟩
  | cons e entries ih =>
    rw [List.forall₂_cons_left_iff, List.map_cons, Datum.toEntries]
    constructor
    · intro h
      obtain ⟨k, hk, h⟩ := bind_ok h
      obtain ⟨w, hw, h⟩ := bind_ok h
      obtain ⟨rest, hrest, h⟩ := bind_ok h
      cases hk
      cases h
      exact ⟨(e.1, w), rest, ⟨rfl, hw⟩, ih.mp hrest, rfl⟩
    · rintro ⟨⟨k, w⟩, rest, ⟨rfl, hw⟩, hrest, rfl⟩
      have hkey : (Datum.text e.1).toKey = .ok e.1 := rfl
      rw [hkey, hw, ih.mpr hrest]
      rfl

/-- Members under texts are read one by one. -/
theorem readEntries_ok_iff {content : Reading Value} {ms : List (String × Value)}
    {ds : List (Datum × Datum)} :
    readEntries .text content ms = .ok ds ↔
      ∃ entries : List (String × Datum), ds = entries.map (fun e => (.text e.1, e.2)) ∧
        List.Forall₂ (fun m e => e.1 = m.1 ∧ content m.2 = .ok e.2) ms entries := by
  induction ms generalizing ds with
  | nil =>
    constructor
    · intro h
      cases h
      exact ⟨[], rfl, .nil⟩
    · rintro ⟨entries, rfl, h⟩
      cases h
      rfl
  | cons m ms ih =>
    obtain ⟨name, w⟩ := m
    rw [readEntries]
    constructor
    · intro h
      obtain ⟨k, hk, h⟩ := bind_ok h
      obtain ⟨d, hd, h⟩ := bind_ok h
      obtain ⟨rest, hrest, h⟩ := bind_ok h
      cases hk
      cases h
      obtain ⟨entries, rfl, hentries⟩ := ih.mp hrest
      exact ⟨(name, d) :: entries, rfl, .cons ⟨rfl, hd⟩ hentries⟩
    · rintro ⟨entries, rfl, h⟩
      cases h with
      | @cons _ e _ entries he hentries =>
        obtain ⟨k, d⟩ := e
        obtain ⟨rfl, hd⟩ := he
        dsimp only at hd
        have hkey : readKey .text k = .ok (.text k) := rfl
        rw [hkey, hd, ih.mpr ⟨entries, rfl, hentries⟩]
        rfl

/-- Lists whose keys are those of members ascend when the members do. -/
theorem ascending_of_forall₂ {α β : Type} {R : String × α → String × β → Prop}
    (hR : ∀ a b, R a b → b.1 = a.1) {first : List (String × α)} {second : List (String × β)}
    (h : List.Forall₂ R first second) (ha : Members.Ascending first) :
    Members.Ascending second := by
  have hkeys : second.map Prod.fst = first.map Prod.fst := by
    clear ha
    induction h with
    | nil => rfl
    | cons hab _ ih => rw [List.map_cons, List.map_cons, hR _ _ hab, ih]
  have hpair : (first.map Prod.fst).Pairwise (· < ·) := List.pairwise_map.mpr ha
  rw [← hkeys] at hpair
  exact List.pairwise_map.mp hpair

/-- An entry after every other one is inserted at the end. -/
theorem insertEntry_last {key : String} {d : Datum} {entries : List (String × Datum)}
    (h : ∀ e ∈ entries, e.1 < key) :
    insertEntry (.text key, d) (entries.map fun e => (.text e.1, e.2)) =
      (entries ++ [(key, d)]).map fun e => (.text e.1, e.2) := by
  induction entries with
  | nil => rfl
  | cons e entries ih =>
    obtain ⟨hlt, hrest⟩ := List.forall_mem_cons.mp h
    have hnot : ¬ keyBefore (.text key) (.text e.1) = true := by
      simp only [keyBefore, decide_eq_true_eq]
      exact fun hgt => String.lt_irrefl _ (String.lt_trans hlt hgt)
    have hbefore : keyBefore (.text e.1) (.text key) = true := by
      simp only [keyBefore, decide_eq_true_eq]
      exact hlt
    rw [List.map_cons, insertEntry, if_neg hnot, if_pos hbefore, ih hrest, List.cons_append,
      List.map_cons]

/-- Entries with ascending keys stay in their order. -/
theorem foldl_insertEntry {entries : List (String × Datum)} (h : Members.Ascending entries) :
    (entries.map fun e => ((Datum.text e.1, e.2) : Datum × Datum)).foldl
        (fun sorted entry => insertEntry entry sorted) [] =
      entries.map fun e => (.text e.1, e.2) := by
  suffices ∀ before : List (String × Datum), Members.Ascending (before ++ entries) →
      (entries.map fun e => ((Datum.text e.1, e.2) : Datum × Datum)).foldl
          (fun sorted entry => insertEntry entry sorted) (before.map fun e => (.text e.1, e.2)) =
        (before ++ entries).map fun e => (.text e.1, e.2) from this [] h
  clear h
  induction entries with
  | nil => exact fun before _ => by rw [List.append_nil]; rfl
  | cons e entries ih =>
    intro before h
    have hlast : ∀ other ∈ before, other.1 < e.1 := fun other hother =>
      (List.pairwise_append.mp h).2.2 other hother e List.mem_cons_self
    rw [List.map_cons, List.foldl_cons, insertEntry_last hlast]
    rw [List.append_cons before e entries] at h ⊢
    exact ih _ h

/-- A map under texts is stored as an object with its keys. -/
theorem toValue_map {entries : List (String × Datum)} {w : Value}
    (h : Members.Ascending entries) :
    (Datum.map (entries.map fun e => (.text e.1, e.2))).toValue = .ok w ↔
      ∃ ms, List.Forall₂ (fun e m => m.1 = e.1 ∧ e.2.toValue = .ok m.2) entries ms ∧
        w = .object ms := by
  rw [Datum.toValue]
  have hsorted {ms : List (String × Value)}
      (hms : List.Forall₂ (fun e m => m.1 = e.1 ∧ e.2.toValue = .ok m.2) entries ms) :
      Members.ofEntries ms = ms :=
    Members.ofEntries_of_ascending (ascending_of_forall₂ (fun _ _ hem => hem.1) hms h)
  constructor
  · intro hvalue
    obtain ⟨ms, hms, hvalue⟩ := bind_ok hvalue
    have hentries := toEntries_ok_iff.mp hms
    cases hvalue
    exact ⟨ms, hentries, by rw [hsorted hentries]⟩
  · rintro ⟨ms, hms, rfl⟩
    rw [toEntries_ok_iff.mpr hms]
    show Except.ok (Value.object (Members.ofEntries ms)) = _
    rw [hsorted hms]

/-- Members whose values are read exactly are stored as they stand. -/
theorem exact_members {reading : Reading Value} {P : Datum → Prop} (h : Exact reading P)
    {ms : List (String × Value)} {entries : List (String × Datum)}
    (ho : ∀ m ∈ ms, m.2.Ordered)
    (hread : List.Forall₂ (fun m e => e.1 = m.1 ∧ reading m.2 = .ok e.2) ms entries) :
    (∀ e ∈ entries, P e.2) ∧
      List.Forall₂ (fun e m => m.1 = e.1 ∧ e.2.toValue = .ok m.2) entries ms := by
  induction hread with
  | nil => exact ⟨fun _ he => absurd he List.not_mem_nil, .nil⟩
  | cons hme _ ih =>
    obtain ⟨hm, hms⟩ := List.forall_mem_cons.mp ho
    obtain ⟨hP, hvalue⟩ := h.sound hm hme.2
    obtain ⟨hPs, hvalues⟩ := ih hms
    exact ⟨List.forall_mem_cons.mpr ⟨hP, hPs⟩, .cons ⟨hme.1.symm, hvalue⟩ hvalues⟩

/-- Entries whose values are read exactly are read back. -/
theorem complete_members {reading : Reading Value} {P : Datum → Prop} (h : Exact reading P)
    {ms : List (String × Value)} {entries : List (String × Datum)} (hP : ∀ e ∈ entries, P e.2)
    (hvalues : List.Forall₂ (fun e m => m.1 = e.1 ∧ e.2.toValue = .ok m.2) entries ms) :
    List.Forall₂ (fun m e => e.1 = m.1 ∧ reading m.2 = .ok e.2) ms entries := by
  induction hvalues with
  | nil => exact .nil
  | cons hem _ ih =>
    obtain ⟨he, hrest⟩ := List.forall_mem_cons.mp hP
    exact .cons ⟨hem.1.symm, h.complete he hem.2⟩ (ih hrest)

/-- Maps under texts are read exactly. -/
theorem exact_map {reading : Reading Value} {content : Schema} (h : Exact reading (Has content)) :
    Exact (readMap .text reading) (Has (.map .text content)) := by
  constructor
  · intro w x ho hread
    cases w with
    | object ms =>
      obtain ⟨hascending, hordered⟩ := Json.ordered_object_iff.mp ho
      rw [readMap, readMapMembers] at hread
      obtain ⟨ds, hds, hread⟩ := bind_ok hread
      obtain ⟨entries, rfl, hentries⟩ := readEntries_ok_iff.mp hds
      have hkeys : Members.Ascending entries :=
        ascending_of_forall₂ (fun _ _ hme => hme.1) hentries hascending
      rw [foldl_insertEntry hkeys] at hread
      cases hread
      obtain ⟨hhas, hvalues⟩ := exact_members h hordered hentries
      exact ⟨.map hkeys hhas, (toValue_map hkeys).mpr ⟨ms, hvalues, rfl⟩⟩
    | null | bool | number | string | array => cases hread
  · intro w x hx hvalue
    cases hx with
    | @map _ entries hkeys hhas =>
      obtain ⟨ms, hms, rfl⟩ := (toValue_map hkeys).mp hvalue
      have hentries := complete_members h hhas hms
      rw [readMap, readMapMembers, readEntries_ok_iff.mpr ⟨entries, rfl, hentries⟩]
      show Except.ok (Datum.map (List.foldl _ [] _)) = _
      rw [foldl_insertEntry hkeys]

end Settings.Schema
