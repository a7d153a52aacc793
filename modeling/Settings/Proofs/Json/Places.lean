import Settings.Proofs.Json.Canonical

/-!
# Places in a value and in its text

A path names a place in a value by the items and the members on the way down. In a text a
member counts only when no later one has its key, however that key is spelled. What stands at
a place of a text is denoted by what stands there in the value of the text, and the text that
is written for a value has at every place what is written for the part that stands there.
-/

namespace Settings.Json

/-- One step of the way down into a value. -/
inductive Descent where
  /-- To an item, counted from zero. -/
  | item (index : Nat)
  /-- To the member of a key. -/
  | member (key : String)
deriving DecidableEq

/-- The part of a value at the end of a path. -/
def Value.at? : List Descent → Value → Option Value
  | [], v => some v
  | .item index :: path, .array items => items[index]?.bind (at? path)
  | .member key :: path, .object members => (Members.find? key members).bind (at? path)
  | _ :: _, _ => none

/-- A part of a tree stands at the end of a path. -/
inductive Tree.At : Tree → List Descent → Tree → Prop where
  /-- The whole tree. -/
  | here (tree : Tree) : tree.At [] tree
  /-- In an item. -/
  | item {items : List Tree} {index : Nat} {tree part : Tree} {path : List Descent}
    (hi : items[index]? = some tree) (h : tree.At path part) :
    (Tree.array items).At (.item index :: path) part
  /-- In the value of the last entry under a key. -/
  | member {before after : List (List Piece × Tree)} {pieces : List Piece} {key : String}
    {tree part : Tree} {path : List Descent} (hk : Decodes pieces key.toList)
    (hlast : ∀ e ∈ after, ¬Decodes e.1 key.toList) (h : tree.At path part) :
    (Tree.object (before ++ (pieces, tree) :: after)).At (.member key :: path) part

/-! ### Related parts of related lists -/

section Related

variable {β γ : Type} {R : β → γ → Prop}

/-- Related lists have related elements at every index. -/
theorem getElem?_of_forall₂ {xs : List β} {ys : List γ} (h : List.Forall₂ R xs ys) {index : Nat}
    {x : β} (hx : xs[index]? = some x) : ∃ y, ys[index]? = some y ∧ R x y := by
  induction h generalizing index with
  | nil => cases hx
  | cons hxy _ ih =>
    cases index with
    | zero => cases hx; exact ⟨_, rfl, hxy⟩
    | succ index => exact ih hx

/-- A list that is related to one around an element has the related element in between. -/
theorem split_of_forall₂ {before after : List β} {x : β} {ys : List γ}
    (h : List.Forall₂ R (before ++ x :: after) ys) :
    ∃ first y rest, ys = first ++ y :: rest ∧ R x y ∧ List.Forall₂ R after rest := by
  induction before generalizing ys with
  | nil =>
    cases h with
    | cons hxy hrest => exact ⟨[], _, _, rfl, hxy, hrest⟩
  | cons b before ih =>
    cases h with
    | @cons _ c _ ys _ hmore =>
      obtain ⟨first, y, rest, rfl, hxy, hrest⟩ := ih hmore
      exact ⟨c :: first, y, rest, rfl, hxy, hrest⟩

end Related

/-- An entry that no later one hides is the last under its key. -/
theorem last?_append_cons {α : Type} {key : String} {value : α} {before after : List (String × α)}
    (h : ∀ e ∈ after, e.1 ≠ key) : last? key (before ++ (key, value) :: after) = some value := by
  have hafter : after.reverse.lookup key = none := by
    rw [List.lookup_eq_none_iff]
    intro e he
    exact bne_iff_ne.mpr (h e (List.mem_reverse.mp he)).symm
  rw [last?, List.reverse_append, List.reverse_cons, List.append_assoc, List.lookup_append, hafter]
  simp only [List.singleton_append, List.lookup_cons, beq_self_eq_true, Option.none_or]

/-- The last entry under a key denotes what is last under that key. -/
theorem last?_of_entries {before after : List (List Piece × Tree)} {pieces : List Piece}
    {tree : Tree} {key : String} {ms : List (String × Value)}
    (hms : List.Forall₂ (EntryOf denotation.key denotation.Of) (before ++ (pieces, tree) :: after)
      ms) (hk : Decodes pieces key.toList) (hlast : ∀ e ∈ after, ¬Decodes e.1 key.toList) :
    ∃ w, last? key ms = some w ∧ tree.Denotes w := by
  obtain ⟨first, m, rest, rfl, hm, hrest⟩ := split_of_forall₂ hms
  cases hm with
  | @mk _ _ k w hkey hw =>
    obtain rfl : k = key := String.toList_inj.mp (Decodes.unique hkey hk)
    have hnone : ∀ later ∈ rest, later.1 ≠ k := by
      have hall := (List.forall₂_and_left _ _).mpr ⟨hlast, hrest⟩
      clear hms hrest hlast
      induction hall with
      | nil => exact fun _ h => absurd h List.not_mem_nil
      | cons he _ ih =>
        refine List.forall_mem_cons.mpr ⟨?_, ih⟩
        rintro rfl
        obtain ⟨hspelled, hentry⟩ := he
        cases hentry with
        | mk hsame _ => exact hspelled hsame
    exact ⟨w, last?_append_cons hnone, hw⟩

/-! ### From text to value -/

/-- The value that a tree denotes has at every place a part that is denoted by what stands
there in the tree. -/
theorem Tree.At.denotes {tree part : Tree} {path : List Descent} (h : tree.At path part)
    {v : Value} (hv : tree.Denotes v) : ∃ w, v.at? path = some w ∧ part.Denotes w := by
  induction h generalizing v with
  | here => exact ⟨v, rfl, hv⟩
  | @item items index tree part path hi _ ih =>
    cases hv with
    | @array _ vs hvs =>
      obtain ⟨x, hx, hof⟩ := getElem?_of_forall₂ hvs hi
      obtain ⟨w, hw, hpart⟩ := ih hof
      exact ⟨w, Option.bind_eq_some_iff.mpr ⟨x, hx, hw⟩, hpart⟩
  | @member before after pieces key tree part path hk hlast _ ih =>
    cases hv with
    | object hms hx =>
      obtain ⟨members, rfl, -, hfind⟩ := hx
      obtain ⟨x, hlookup, hof⟩ := last?_of_entries hms hk hlast
      obtain ⟨w, hw, hpart⟩ := ih hof
      exact ⟨w, Option.bind_eq_some_iff.mpr ⟨x, (hfind key).trans hlookup, hw⟩, hpart⟩

/-! ### From value to text -/

/-- In the tree of an ordered value there stands at every place the tree of the part. -/
theorem Tree.at_of_at? {v w : Value} {path : List Descent} (ho : v.Ordered)
    (h : v.at? path = some w) : v.tree.At path w.tree := by
  induction path generalizing v with
  | nil =>
    cases h
    exact .here _
  | cons step path ih =>
    cases step with
    | item index =>
      cases v with
      | array items =>
        obtain ⟨x, hx, hw⟩ := Option.bind_eq_some_iff.mp h
        have hitem : x.Ordered := orderedItems_iff.mp ho x (List.mem_of_getElem? hx)
        have htree : (treesOfItems items)[index]? = some x.tree := by
          rw [treesOfItems_eq, List.getElem?_map, hx]
          rfl
        exact .item htree (ih hitem hw)
      | null | bool | number | string | object => cases h
    | member key =>
      cases v with
      | object members =>
        obtain ⟨x, hx, hw⟩ := Option.bind_eq_some_iff.mp h
        obtain ⟨hasc, hordered⟩ := ordered_object_iff.mp ho
        obtain ⟨before, after, rfl⟩ := List.append_of_mem (Members.mem_of_find? hx)
        have hmember : x.Ordered := hordered _ (List.mem_append_right _ List.mem_cons_self)
        have hlater := (List.pairwise_cons.mp (List.pairwise_append.mp hasc).2.1).1
        rw [Value.tree, entriesOfMembers_eq, List.map_append, List.map_cons]
        refine .member (decodes_escapedPieces _) (fun e he hdecodes => ?_) (ih hmember hw)
        -- a later key is greater, so it cannot be spelled like this one
        obtain ⟨m, hm, rfl⟩ := List.mem_map.mp he
        have hsame := String.toList_inj.mp (Decodes.unique hdecodes (decodes_escapedPieces _))
        have hlt := hlater m hm
        rw [hsame] at hlt
        exact String.lt_irrefl _ hlt
      | null | bool | number | string | array => cases h

end Settings.Json
