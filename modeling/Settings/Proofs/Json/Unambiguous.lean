import Settings.Proofs.Json.Parsing

/-!
# A text spells one tree

The reader of trees accepts whatever keeps to the grammar, since a text cannot open
more containers than it has characters and no scalar is refused. It yields the very
tree that was spelled, and it yields one result; so no text spells two trees.
-/

namespace Settings.Json

/-! ### Depth and length -/

/-- An element of a row has its text in the row. -/
theorem Row.exists_of_mem {γ : Type} {One : List Char → γ → Prop} {body : List Char}
    {xs : List γ} (h : Row One body xs) {x : γ} (hx : x ∈ xs) :
    ∃ text, One text x ∧ text.length ≤ body.length := by
  induction h with
  | last hone =>
    rw [List.mem_singleton.mp hx]
    exact ⟨_, hone, Nat.le_refl _⟩
  | @more text after rest y ys hone ha _ ih =>
    have hlen : text.length + rest.length ≤ (text ++ (after ++ ',' :: rest)).length := by
      simp only [List.length_append, List.length_cons]
      omega
    rcases List.mem_cons.mp hx with rfl | hx
    · exact ⟨text, hone, by omega⟩
    · obtain ⟨inner, hinner, hle⟩ := ih hx
      exact ⟨inner, hinner, by omega⟩

/-- An element inside brackets has its text there, without the blanks in front. -/
theorem Inside.exists_of_mem {γ : Type} {One : List Char → γ → Prop} {body : List Char}
    {xs : List γ} (h : Inside (Led One) body xs) {x : γ} (hx : x ∈ xs) :
    ∃ text, One text x ∧ text.length ≤ body.length := by
  cases h with
  | blank => exact absurd hx List.not_mem_nil
  | row hrow ha =>
    obtain ⟨text, hled, hle⟩ := hrow.exists_of_mem hx
    cases hled with
    | @mk before inner _ hb hone =>
      refine ⟨inner, hone, ?_⟩
      rw [List.length_append] at hle ⊢
      omega

/-- A text opens no more containers than it has characters. -/
theorem Spells.depth_le_length {text : List Char} {tree : Tree} (h : Spells text tree) :
    tree.depth ≤ text.length := by
  induction tree using Tree.induct generalizing text with
  | null | bool | number | string => exact Nat.zero_le _
  | array items ih =>
    cases h with
    | @array body _ hi =>
      have hitems : depthOfTrees items ≤ body.length := depthOfTrees_le_iff.mpr fun t ht => by
        obtain ⟨inner, hinner, hle⟩ := hi.exists_of_mem ht
        exact (ih t ht hinner).trans hle
      simp only [Tree.depth, List.length_cons, List.length_append]
      omega
  | object entries ih =>
    cases h with
    | @object body _ he =>
      have hentries : depthOfEntries entries ≤ body.length :=
        depthOfEntries_le_iff.mpr fun e hmem => by
          obtain ⟨inner, hinner, hle⟩ := he.exists_of_mem hmem
          cases hinner with
          | @mk key before value ps t _ _ hvalue =>
            cases hvalue with
            | @mk blanks value _ _ hs =>
              have hlen := ih (ps, t) hmem hs
              simp only [List.length_cons, List.length_append] at hle
              omega
      simp only [Tree.depth, List.length_cons, List.length_append]
      omega

/-- The same is true with blanks around the value. -/
theorem SpellsText.depth_le_length {text : List Char} {tree : Tree} (h : SpellsText text tree) :
    tree.depth ≤ text.length := by
  cases h with
  | mk hv ha =>
    cases hv with
    | mk hb hs =>
      have hlen := hs.depth_le_length
      simp only [List.length_append]
      omega

/-- What a text is read as, when any number of containers may be open: the meaning of a
tree that it spells. -/
theorem whole_length_ok_iff {τ α : Type} {target : Target τ α} {key : List Piece → τ → Prop}
    (hstring : ReadsPieces target.string key) {text : List Char} {x : α} :
    whole target text.length text = .ok x ↔
      ∃ tree, SpellsText text tree ∧ (target.meaning key).Of tree x := by
  rw [whole_ok_iff hstring]
  constructor
  · rintro ⟨tree, hspells, -, hof⟩
    exact ⟨tree, hspells, hof⟩
  · rintro ⟨tree, hspells, hof⟩
    exact ⟨tree, hspells, hspells.depth_le_length, hof⟩

/-! ### The tree that is read -/

/-- Lists whose elements can only be related to themselves are only related to
themselves. -/
theorem forall₂_iff_eq {β : Type} {R : β → β → Prop} {xs ys : List β}
    (h : ∀ x ∈ xs, ∀ y, R x y ↔ y = x) : List.Forall₂ R xs ys ↔ ys = xs := by
  induction xs generalizing ys with
  | nil => exact List.forall₂_nil_left_iff
  | cons x xs ih =>
    obtain ⟨hx, hxs⟩ := List.forall_mem_cons.mp h
    rw [List.forall₂_cons_left_iff]
    constructor
    · rintro ⟨y, zs, hy, hzs, rfl⟩
      rw [(hx y).mp hy, (ih hxs).mp hzs]
    · rintro rfl
      exact ⟨x, xs, (hx x).mpr rfl, (ih hxs).mpr rfl, rfl⟩

/-- Of a tree the reader of trees makes that tree. -/
theorem meaning_treeTarget {tree x : Tree} :
    (treeTarget.meaning fun ps qs => qs = ps).Of tree x ↔ x = tree := by
  induction tree using Tree.induct generalizing x with
  | null => exact ⟨fun h => by cases h; rfl, fun h => by subst h; exact .null⟩
  | bool b => exact ⟨fun h => by cases h; rfl, fun h => by subst h; exact .bool b⟩
  | number l =>
    constructor
    · intro h
      cases h with
      | number hx => cases hx; rfl
    · rintro rfl
      exact .number rfl
  | string ps =>
    constructor
    · intro h
      cases h with
      | string hk => cases hk; rfl
    · rintro rfl
      exact .string rfl
  | array items ih =>
    have hitems {ys : List Tree} :
        List.Forall₂ (treeTarget.meaning fun ps qs => qs = ps).Of items ys ↔ ys = items :=
      forall₂_iff_eq fun t ht _ => ih t ht
    constructor
    · intro h
      cases h with
      | array hxs => rw [hitems.mp hxs]; rfl
    · rintro rfl
      exact .array (hitems.mpr rfl)
  | object entries ih =>
    have hentries {ms : List (List Piece × Tree)} :
        List.Forall₂ (EntryOf (fun ps qs => qs = ps) (treeTarget.meaning fun ps qs => qs = ps).Of)
          entries ms ↔ ms = entries := by
      refine forall₂_iff_eq fun e he m => ⟨?_, ?_⟩
      · rintro ⟨hk, hx⟩
        rw [hk, (ih _ he).mp hx]
      · rintro rfl
        exact .mk rfl ((ih m he).mpr rfl)
    constructor
    · intro h
      cases h with
      | object hms hx => rw [hentries.mp hms] at hx; exact hx
    · rintro rfl
      exact .object (hentries.mpr rfl) rfl

/-- A text is read as a tree exactly when it spells the tree. -/
theorem readTree_ok_iff {text : String} {tree : Tree} :
    readTree text = .ok tree ↔ SpellsText text.toList tree := by
  have hwhole : whole treeTarget text.toList.length text.toList = .ok tree ↔
      ∃ t, SpellsText text.toList t ∧ (treeTarget.meaning fun ps qs => qs = ps).Of t tree :=
    whole_length_ok_iff readsPieces_treeTarget
  simp only [meaning_treeTarget] at hwhole
  rw [String.length_toList] at hwhole
  have hread : readTree text = .ok tree ↔
      whole treeTarget text.length text.toList = .ok tree := by
    unfold readTree
    cases whole treeTarget text.length text.toList with
    | error failure => exact ⟨nofun, nofun⟩
    | ok t => exact ⟨fun h => by cases h; rfl, fun h => by cases h; rfl⟩
  rw [hread, hwhole]
  exact ⟨fun ⟨t, ht, he⟩ => he ▸ ht, fun h => ⟨tree, h, rfl⟩⟩

/-- No text spells two trees. -/
theorem SpellsText.unique {text : List Char} {first second : Tree} (hf : SpellsText text first)
    (hs : SpellsText text second) : first = second := by
  rw [← @String.toList_ofList text] at hf hs
  have hread := readTree_ok_iff.mpr hf
  rw [readTree_ok_iff.mpr hs] at hread
  cases hread
  rfl

end Settings.Json
