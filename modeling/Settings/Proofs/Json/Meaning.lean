import Mathlib.Data.List.Forall2
import Settings.Json.Reader
import Settings.Proofs.Json.Grammar

/-!
# What is made of a tree

A meaning says what is made of each kind of scalar and how items and members are put
together; what is made of a whole tree follows. Parts of a meaning are relations, so
that a number out of range or a string without text has no meaning, and so that what
an object is can be said without building it. A tree has a meaning when its strings
and its numbers have one.
-/

namespace Settings.Json

/-! ### Depth, literals and strings, item by item -/

/-- Items are nested no deeper than a bound when each of them is. -/
theorem depthOfTrees_le_iff {items : List Tree} {n : Nat} :
    depthOfTrees items ≤ n ↔ ∀ t ∈ items, t.depth ≤ n := by
  induction items with
  | nil =>
    rw [depthOfTrees]
    exact ⟨fun _ t ht => absurd ht List.not_mem_nil, fun _ => Nat.zero_le n⟩
  | cons t ts ih => rw [depthOfTrees, Nat.max_le, ih, List.forall_mem_cons]

/-- Entries are nested no deeper than a bound when the value of each is. -/
theorem depthOfEntries_le_iff {entries : List (List Piece × Tree)} {n : Nat} :
    depthOfEntries entries ≤ n ↔ ∀ e ∈ entries, e.2.depth ≤ n := by
  induction entries with
  | nil =>
    rw [depthOfEntries]
    exact ⟨fun _ e he => absurd he List.not_mem_nil, fun _ => Nat.zero_le n⟩
  | cons e es ih => obtain ⟨k, t⟩ := e; rw [depthOfEntries, Nat.max_le, ih, List.forall_mem_cons]

/-- The literals in items are those in each of them. -/
theorem forall_literalsOfTrees_iff {P : Literal → Prop} {items : List Tree} :
    (∀ l ∈ literalsOfTrees items, P l) ↔ ∀ t ∈ items, ∀ l ∈ t.literals, P l := by
  induction items with
  | nil => simp only [literalsOfTrees, List.not_mem_nil, false_implies, implies_true]
  | cons t ts ih => rw [literalsOfTrees, List.forall_mem_append, ih, List.forall_mem_cons]

/-- The literals in entries are those in the value of each. -/
theorem forall_literalsOfEntries_iff {P : Literal → Prop} {entries : List (List Piece × Tree)} :
    (∀ l ∈ literalsOfEntries entries, P l) ↔ ∀ e ∈ entries, ∀ l ∈ e.2.literals, P l := by
  induction entries with
  | nil => simp only [literalsOfEntries, List.not_mem_nil, false_implies, implies_true]
  | cons e es ih =>
    obtain ⟨k, t⟩ := e
    rw [literalsOfEntries, List.forall_mem_append, ih, List.forall_mem_cons]

/-- The strings in items are those in each of them. -/
theorem forall_stringsOfTrees_iff {P : List Piece → Prop} {items : List Tree} :
    (∀ ps ∈ stringsOfTrees items, P ps) ↔ ∀ t ∈ items, ∀ ps ∈ t.strings, P ps := by
  induction items with
  | nil => simp only [stringsOfTrees, List.not_mem_nil, false_implies, implies_true]
  | cons t ts ih => rw [stringsOfTrees, List.forall_mem_append, ih, List.forall_mem_cons]

/-- The strings in entries are their keys and those in the value of each. -/
theorem forall_stringsOfEntries_iff {P : List Piece → Prop}
    {entries : List (List Piece × Tree)} :
    (∀ ps ∈ stringsOfEntries entries, P ps) ↔
      ∀ e ∈ entries, P e.1 ∧ ∀ ps ∈ e.2.strings, P ps := by
  induction entries with
  | nil => simp only [stringsOfEntries, List.not_mem_nil, false_implies, implies_true]
  | cons e es ih =>
    obtain ⟨k, t⟩ := e
    rw [stringsOfEntries, List.forall_mem_cons, List.forall_mem_append, ih, List.forall_mem_cons,
      and_assoc]

/-- What holds of scalars, and of containers when it holds of what they contain, holds
of every tree. -/
theorem Tree.induct {P : Tree → Prop} (null : P .null) (bool : ∀ b, P (.bool b))
    (number : ∀ l, P (.number l)) (string : ∀ ps, P (.string ps))
    (array : ∀ items, (∀ t ∈ items, P t) → P (.array items))
    (object : ∀ entries : List (List Piece × Tree), (∀ e ∈ entries, P e.2) → P (.object entries))
    (tree : Tree) : P tree :=
  @Tree.rec P (fun items => ∀ t ∈ items, P t) (fun entries => ∀ e ∈ entries, P e.2)
    (fun e => P e.2) null bool number string array object
    (fun _ h => absurd h List.not_mem_nil)
    (fun _ _ ht hts => List.forall_mem_cons.mpr ⟨ht, hts⟩)
    (fun _ h => absurd h List.not_mem_nil)
    (fun _ _ he hes => List.forall_mem_cons.mpr ⟨he, hes⟩)
    (fun _ _ h => h) tree

/-! ### Meanings -/

/-- What is made of scalars, items and members. -/
structure Meaning (τ α : Type) where
  /-- The null value. -/
  null : α
  /-- A truth value. -/
  bool : Bool → α
  /-- What a literal can be. -/
  number : Literal → α → Prop
  /-- What the pieces of a string can be. -/
  key : List Piece → τ → Prop
  /-- A string as a value. -/
  text : τ → α
  /-- Items in order. -/
  array : List α → α
  /-- What members in order of occurrence can be. -/
  object : List (τ × α) → α → Prop

variable {τ α : Type}

/-- What an entry can be, when it is given what trees can be. -/
inductive EntryOf (key : List Piece → τ → Prop) (Of : Tree → α → Prop) :
    List Piece × Tree → τ × α → Prop where
  /-- A key and a value. -/
  | mk {pieces : List Piece} {tree : Tree} {k : τ} {x : α} (hk : key pieces k)
    (hx : Of tree x) : EntryOf key Of (pieces, tree) (k, x)

/-- What a tree can be. -/
inductive Meaning.Of (M : Meaning τ α) : Tree → α → Prop where
  /-- The null value. -/
  | null : M.Of .null M.null
  /-- A truth value. -/
  | bool (b : Bool) : M.Of (.bool b) (M.bool b)
  /-- A number. -/
  | number {literal : Literal} {x : α} (hx : M.number literal x) : M.Of (.number literal) x
  /-- A string. -/
  | string {pieces : List Piece} {k : τ} (hk : M.key pieces k) : M.Of (.string pieces) (M.text k)
  /-- An array of what its items are. -/
  | array {items : List Tree} {xs : List α} (hxs : List.Forall₂ M.Of items xs) :
    M.Of (.array items) (M.array xs)
  /-- An object of what its entries are. -/
  | object {entries : List (List Piece × Tree)} {ms : List (τ × α)} {x : α}
    (hms : List.Forall₂ (EntryOf M.key M.Of) entries ms) (hx : M.object ms x) :
    M.Of (.object entries) x

/-- If every element is related to something, then a list is related to a list. -/
theorem exists_forall₂ {β γ : Type} {R : β → γ → Prop} {xs : List β}
    (h : ∀ x ∈ xs, ∃ y, R x y) : ∃ ys, List.Forall₂ R xs ys := by
  induction xs with
  | nil => exact ⟨[], .nil⟩
  | cons x xs ih =>
    obtain ⟨⟨y, hy⟩, hxs⟩ := List.forall_mem_cons.mp h
    obtain ⟨ys, hys⟩ := ih hxs
    exact ⟨y :: ys, .cons hy hys⟩

/-- If a list is related to a list, then every element is related to something. -/
theorem exists_of_forall₂ {β γ : Type} {R : β → γ → Prop} {xs : List β} {ys : List γ}
    (h : List.Forall₂ R xs ys) : ∀ x ∈ xs, ∃ y, R x y := by
  induction h with
  | nil => exact fun x hx => absurd hx List.not_mem_nil
  | cons hxy _ ih => exact List.forall_mem_cons.mpr ⟨⟨_, hxy⟩, ih⟩

/-- A tree is something exactly when its strings and its numbers are, provided that
members always make an object. -/
theorem Meaning.exists_of_iff {M : Meaning τ α} (htotal : ∀ ms, ∃ x, M.object ms x) (tree : Tree) :
    (∃ x, M.Of tree x) ↔
      (∀ ps ∈ tree.strings, ∃ k, M.key ps k) ∧ ∀ l ∈ tree.literals, ∃ x, M.number l x := by
  induction tree using Tree.induct with
  | null => exact ⟨fun _ => ⟨nofun, nofun⟩, fun _ => ⟨_, .null⟩⟩
  | bool b => exact ⟨fun _ => ⟨nofun, nofun⟩, fun _ => ⟨_, .bool b⟩⟩
  | number l =>
    constructor
    · rintro ⟨x, hof⟩
      cases hof with
      | number hx => exact ⟨nofun, List.forall_mem_singleton.mpr ⟨x, hx⟩⟩
    · rintro ⟨-, hl⟩
      obtain ⟨x, hx⟩ := List.forall_mem_singleton.mp hl
      exact ⟨x, .number hx⟩
  | string ps =>
    constructor
    · rintro ⟨x, hof⟩
      cases hof with
      | string hk => exact ⟨List.forall_mem_singleton.mpr ⟨_, hk⟩, nofun⟩
    · rintro ⟨hs, -⟩
      obtain ⟨k, hk⟩ := List.forall_mem_singleton.mp hs
      exact ⟨_, .string hk⟩
  | array items ih =>
    rw [Tree.strings, Tree.literals, forall_stringsOfTrees_iff, forall_literalsOfTrees_iff]
    constructor
    · rintro ⟨x, hof⟩
      cases hof with
      | array hxs =>
        have hall := exists_of_forall₂ hxs
        exact ⟨fun t ht => ((ih t ht).mp (hall t ht)).1, fun t ht => ((ih t ht).mp (hall t ht)).2⟩
    · rintro ⟨hs, hl⟩
      obtain ⟨xs, hxs⟩ := exists_forall₂ fun t ht => (ih t ht).mpr ⟨hs t ht, hl t ht⟩
      exact ⟨_, .array hxs⟩
  | object entries ih =>
    rw [Tree.strings, Tree.literals, forall_stringsOfEntries_iff, forall_literalsOfEntries_iff]
    constructor
    · rintro ⟨x, hof⟩
      cases hof with
      | object hms =>
        have hall : ∀ e ∈ entries, (∃ k, M.key e.1 k) ∧ ∃ x, M.Of e.2 x := by
          intro e he
          obtain ⟨m, hm⟩ := exists_of_forall₂ hms e he
          cases hm with
          | mk hk hx => exact ⟨⟨_, hk⟩, _, hx⟩
        exact ⟨fun e he => ⟨(hall e he).1, ((ih e he).mp (hall e he).2).1⟩,
          fun e he => ((ih e he).mp (hall e he).2).2⟩
    · rintro ⟨hs, hl⟩
      have hall : ∀ e ∈ entries, ∃ m, EntryOf M.key M.Of e m := by
        intro e he
        obtain ⟨k, hk⟩ := (hs e he).1
        obtain ⟨x, hx⟩ := (ih e he).mpr ⟨(hs e he).2, hl e he⟩
        exact ⟨(k, x), .mk hk hx⟩
      obtain ⟨ms, hms⟩ := exists_forall₂ hall
      obtain ⟨x, hx⟩ := htotal ms
      exact ⟨x, .object hms hx⟩

/-- What a target makes of a tree, when it is told what strings can be. -/
def Target.meaning (target : Target τ α) (key : List Piece → τ → Prop) : Meaning τ α where
  null := target.null
  bool := target.bool
  number literal x := target.number literal = .ok x
  key := key
  text := target.text
  array := target.array
  object ms x := x = target.object ms

end Settings.Json
