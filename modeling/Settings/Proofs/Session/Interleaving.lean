import Settings.Proofs.Session.Parties
import Settings.Proofs.Session.Writes

/-!
# Interleaved parties

The steps of two parties are interleaved when each step carries the side that makes it; the
steps of one side, in order, are what that side does. Two parties that are apart are
followed through such a run together with one of them alone: the steps of that one are
answered alike, and the steps of the other leave the two sessions the same for it. Hence
the answers of each party are those of a run in which the parties act one after the other,
whichever of them is first, and every item is the same at the end.
-/

namespace Settings.Session

open Storage (Handle World Items)

/-! ### Sides -/

/-- One of two parties. -/
inductive Side where
  /-- The one. -/
  | first
  /-- The other. -/
  | second
deriving DecidableEq

/-- The other side. -/
def Side.other : Side → Side
  | .first => .second
  | .second => .first

/-- What belongs to a side among what belongs to either, in order. -/
def Side.own {α : Type} (side : Side) (tagged : List (Side × α)) : List α :=
  (tagged.filter fun entry => entry.1 = side).map Prod.snd

/-- What is not of a side is of the other. -/
theorem Side.eq_other {side tag : Side} (h : tag ≠ side) : tag = side.other := by
  cases side <;> cases tag <;> first | rfl | exact absurd rfl h

section Own

variable {α : Type} (side : Side)

/-- The first entry belongs to its side. -/
theorem Side.own_cons_self (entry : α) (rest : List (Side × α)) :
    side.own ((side, entry) :: rest) = entry :: side.own rest := by
  rw [own, List.filter_cons_of_pos (by simp), List.map_cons, own]

/-- An entry of the other side does not belong to a side. -/
theorem Side.own_cons_other (entry : α) (rest : List (Side × α)) :
    side.own ((side.other, entry) :: rest) = side.own rest := by
  have hne : side.other ≠ side := by cases side <;> decide
  rw [own, List.filter_cons_of_neg (by simpa using hne), own]

end Own

/-- The answers to interleaved steps, each with the side that made the step. -/
def heard (session : Session) (moves : List (Side × Step)) :
    List (Side × (Answer × List (Store.Level × String))) :=
  (moves.map Prod.fst).zip (session.run (moves.map Prod.snd))

/-- The first answer is that of the first step. -/
theorem heard_cons (session : Session) (side : Side) (step : Step) (rest : List (Side × Step)) :
    session.heard ((side, step) :: rest) =
      (side, (session.step step).answer, Store.logOf (session.step step).effects) ::
        (session.step step).session.heard rest :=
  rfl

/-! ### Runs of one party -/

namespace Party

variable {party other : Party} {session : Session}

/-- After steps of a party it has what it had, and nothing else is changed. -/
theorem Holds.after (h : party.Holds session) {steps : List Step}
    (ht : ∀ step ∈ steps, party.Takes step) :
    party.Holds (session.after steps) ∧ party.Confines session (session.after steps) := by
  induction steps generalizing session with
  | nil => exact ⟨h, confines_refl party session⟩
  | cons first rest ih =>
    have hfirst := h.step (ht first List.mem_cons_self)
    obtain ⟨hholds, hconfines⟩ :=
      ih hfirst.holds fun step hstep => ht step (List.mem_cons_of_mem first hstep)
    exact ⟨hholds, hfirst.confines.trans hconfines⟩

end Party

/-! ### Runs of two parties -/

section Parties

variable {parties : Side → Party}

/-- Each side is apart from its other side. -/
theorem apart_other (h : (parties .first).Apart (parties .second)) (side : Side) :
    (parties side).Apart (parties side.other) := by
  cases side with
  | first => exact h
  | second => exact h.symm

/-- A step of one side leaves both parties what they have. -/
theorem holds_step {session : Session} (ha : ∀ side, (parties side).Apart (parties side.other))
    (hh : ∀ side, (parties side).Holds session) {side : Side} {step : Step}
    (ht : (parties side).Takes step) (which : Side) :
    (parties which).Holds (session.step step).session := by
  have hkeeps := (hh side).step ht
  by_cases hwhich : which = side
  · rw [hwhich]
    exact hkeeps.holds
  · rw [Side.eq_other hwhich]
    exact (hh side.other).of_confines hkeeps.confines (ha side)

/-- The answers of one side in an interleaved run are those of a run of its own steps, in
any session that is the same for its party, and so are the sessions left. -/
theorem own_heard (ha : ∀ side, (parties side).Apart (parties side.other)) {side : Side}
    {session session' : Session} (hh : ∀ side, (parties side).Holds session)
    (hh' : (parties side).Holds session') (hs : (parties side).Agrees session session')
    {moves : List (Side × Step)} (ht : ∀ move ∈ moves, (parties move.1).Takes move.2) :
    side.own (session.heard moves) = session'.run (side.own moves) ∧
      (parties side).Agrees (session.after (moves.map Prod.snd))
        (session'.after (side.own moves)) := by
  induction moves generalizing session session' with
  | nil => exact ⟨rfl, hs⟩
  | cons move rest ih =>
    obtain ⟨tag, step⟩ := move
    have htake : (parties tag).Takes step := ht (tag, step) List.mem_cons_self
    have hrest : ∀ move ∈ rest, (parties move.1).Takes move.2 :=
      fun move hmove => ht move (List.mem_cons_of_mem _ hmove)
    have hholds := holds_step ha hh htake
    rw [heard_cons, List.map_cons, after]
    by_cases htag : tag = side
    · -- A step of this side is made in both sessions and answered alike.
      subst htag
      have htold := hs.step (hh tag) hh' htake
      have hkept := (hh'.step htake).holds
      obtain ⟨hanswers, hagrees⟩ := ih hholds hkept htold.sessions hrest
      rw [Side.own_cons_self, Side.own_cons_self, run, htold.answer_eq, htold.effects_eq, hanswers]
      exact ⟨rfl, hagrees⟩
    · -- A step of the other side is made in the interleaved session alone.
      have hother := Side.eq_other htag
      subst hother
      have hmoved := ((hh side.other).step htake).confines.agrees (ha side).symm
      rw [Side.own_cons_other, Side.own_cons_other]
      exact ih hholds hh' (hmoved.symm.trans hs) hrest

/-- An item that stands in no slot of either party is left alone by both. -/
theorem item?_after_of_neither {session : Session}
    (ha : ∀ side, (parties side).Apart (parties side.other))
    (hh : ∀ side, (parties side).Holds session)
    {moves : List (Side × Step)} (ht : ∀ move ∈ moves, (parties move.1).Takes move.2)
    {key : String} (hkey : ∀ side, ¬ (parties side).portion.keys key) (side : Side) :
    (session.after (moves.map Prod.snd)).item? (parties side).portion.area key =
      session.item? (parties side).portion.area key := by
  induction moves generalizing session with
  | nil => rfl
  | cons move rest ih =>
    obtain ⟨tag, step⟩ := move
    have htake : (parties tag).Takes step := ht (tag, step) List.mem_cons_self
    have hconfines := ((hh tag).step htake).confines.worlds.item_eq key (hkey tag)
    have harea : (parties side).portion.area = (parties tag).portion.area := by
      by_cases htag : tag = side
      · rw [htag]
      · rw [Side.eq_other htag, (ha side).portions.area_eq]
    rw [List.map_cons, after,
      ih (holds_step ha hh htake) fun move hmove => ht move (List.mem_cons_of_mem _ hmove), harea]
    exact hconfines

/-- The steps of one side are steps of its party. -/
theorem takes_own {moves : List (Side × Step)}
    (ht : ∀ move ∈ moves, (parties move.1).Takes move.2) (side : Side) :
    ∀ step ∈ side.own moves, (parties side).Takes step := by
  intro step hstep
  rw [Side.own, List.mem_map] at hstep
  obtain ⟨move, hmove, rfl⟩ := hstep
  rw [List.mem_filter, decide_eq_true_eq] at hmove
  exact hmove.2 ▸ ht move hmove.1

end Parties

/-- A run of steps and then of more steps. -/
theorem run_append (session : Session) (steps more : List Step) :
    session.run (steps ++ more) = session.run steps ++ (session.after steps).run more := by
  induction steps generalizing session with
  | nil => rfl
  | cons first rest ih => rw [List.cons_append, run, run, ih, List.cons_append, after]

/-- The session after steps and then after more steps. -/
theorem after_append (session : Session) (steps more : List Step) :
    session.after (steps ++ more) = (session.after steps).after more := by
  induction steps generalizing session with
  | nil => rfl
  | cons first rest ih => rw [List.cons_append, after, ih, after]

/-- Two parties have handles of their own on one area of memory, no name of a store in
common and no slot in common. However their steps are interleaved, every step is answered
and logged as if one party, whichever it is, had made all of its steps before the other,
and the same item is left under every key of the area. -/
theorem run_interleaved {session : Session} {parties : Side → Party}
    (hapart : (parties .first).Apart (parties .second))
    (hholds : ∀ side, (parties side).Holds session) {moves : List (Side × Step)}
    (htakes : ∀ move ∈ moves, (parties move.1).Takes move.2) (side : Side) :
    session.run (side.own moves ++ side.other.own moves) =
        side.own (session.heard moves) ++ side.other.own (session.heard moves) ∧
      ∀ key,
        (session.after (side.own moves ++ side.other.own moves)).item?
            (parties side).portion.area key =
          (session.after (moves.map Prod.snd)).item? (parties side).portion.area key := by
  have ha := apart_other hapart
  -- The side that is first acts in the given session, the other one in what it leaves.
  obtain ⟨_, hleft⟩ := (hholds side).after (takes_own htakes side)
  have hother := (hholds side.other).of_confines hleft (ha side)
  obtain ⟨_, hlast⟩ := hother.after (takes_own htakes side.other)
  obtain ⟨hown, hagrees⟩ :=
    own_heard ha hholds (hholds side) (Party.agrees_refl _ session) htakes
  obtain ⟨hown', hagrees'⟩ :=
    own_heard ha hholds hother (hleft.agrees (ha side)) htakes
  have harea := (ha side).portions.area_eq
  refine ⟨by rw [run_append, hown, hown'], fun key => ?_⟩
  rw [after_append]
  by_cases hkey : (parties side).portion.keys key
  · have hlater := (hlast.agrees (ha side).symm).worlds.item_eq key hkey
    exact hlater.trans (hagrees.worlds.item_eq key hkey)
  by_cases hkey' : (parties side.other).portion.keys key
  · have hitem := hagrees'.worlds.item_eq key hkey'
    rw [harea] at hitem
    exact hitem
  · have hneither (which : Side) : ¬ (parties which).portion.keys key := by
      by_cases hwhich : which = side
      · rwa [hwhich]
      · rwa [Side.eq_other hwhich]
    have hfirst := hleft.worlds.item_eq key hkey
    have hsecond := hlast.worlds.item_eq key hkey'
    rw [harea] at hsecond
    exact (hsecond.trans hfirst).trans
      (item?_after_of_neither ha hholds htakes hneither side).symm

/-- Two handles on one area of memory. -/
def twoTenants : Session :=
  start.after [.memory "here" [("operaton", "\x7b\x7d")], .share "there" "here"]

/-- A party in the default slot and a party in a slot of its own. -/
def tenant : Side → Party
  | .first => ⟨"here", ⟨0, 0, (· = "operaton")⟩, (· = "a")⟩
  | .second => ⟨"there", ⟨0, 1, (· = "tenant")⟩, (· = "b")⟩

/-- Both parties open a store and change it; one writing of the second party fails, and
its next one makes up for it. -/
def tenantMoves : List (Side × Step) :=
  [(.first, .openStore "a" "here" none), (.second, .openStore "b" "there" (some "tenant")),
    (.second, .fail "there" none (some (.error .noWindow))), (.first, .put "a" "x" "1"),
    (.second, .put "b" "y" "2"), (.second, .fail "there" none none), (.first, .remove "a" "z"),
    (.second, .remove "b" "z")]

/-- The second party might as well have acted first, and the text that it wrote last stands
in its slot. -/
theorem run_interleaved_tenants :
    ((tenant .first).Apart (tenant .second) ∧ (∀ side, (tenant side).Holds twoTenants) ∧
      ∀ move ∈ tenantMoves, (tenant move.1).Takes move.2) ∧
    twoTenants.run (Side.second.own tenantMoves ++ Side.first.own tenantMoves) =
      Side.second.own (twoTenants.heard tenantMoves) ++
        Side.first.own (twoTenants.heard tenantMoves) ∧
    (twoTenants.after (Side.second.own tenantMoves ++ Side.first.own tenantMoves)).item? 0
      "tenant" = some "\x7b\"y\":2\x7d" := by
  have hapart : (tenant .first).Apart (tenant .second) := by
    refine ⟨⟨rfl, by decide, fun key htenant hdefault => ?_⟩, fun name hb ha => ?_⟩
    · exact absurd (Eq.trans (Eq.symm htenant) hdefault) (by decide)
    · exact absurd (Eq.trans (Eq.symm hb) ha) (by decide)
  have hholds (side : Side) : (tenant side).Holds twoTenants := by
    refine ⟨?_, ?_, fun name bound _ hfind => ?_⟩
    · cases side <;> decide
    · cases side <;> exact ⟨by decide, by decide⟩
    · cases hfind
  have htakes : ∀ move ∈ tenantMoves, (tenant move.1).Takes move.2 := by
    intro move hmove
    simp only [tenantMoves, List.mem_cons, List.not_mem_nil, or_false] at hmove
    rcases hmove with rfl | rfl | rfl | rfl | rfl | rfl | rfl | rfl
    · exact ⟨rfl, rfl, rfl⟩
    · exact ⟨rfl, rfl, rfl⟩
    all_goals exact rfl
  obtain ⟨hrun, hitem⟩ := run_interleaved hapart hholds htakes .second
  exact ⟨⟨hapart, hholds, htakes⟩, hrun, (hitem "tenant").trans (by decide +kernel)⟩

end Settings.Session
