import ExposureControl.Proofs.ArmListing
import ExposureControl.Proofs.PresetBlock
import Mathlib.Algebra.BigOperators.Group.List.Basic

/-!
# Restored arms

A restore replaces the record of an arm and lists the arm for the contest that the new record
names.  It takes the arm out of no list, so an arm that was filed under another contest before
stays listed there as well, and from then on it is listed twice.
-/

namespace ExposureControl

namespace Registry

variable {before middle after registry : Registry} {contest : Contest}

/-- Whether an arm is on the list of all arms exactly once, among the arms of its own contest and
of no other one. -/
structure ListsOnce (registry : Registry) (arm : Arm) : Prop where
  one : (registry.allArms.countP fun listed => listed.id = arm.id) = 1
  own : arm ∈ registry.armsOf arm.contest
  alone : ∀ other, other ≠ arm.contest → ∀ listed ∈ registry.armsOf other, listed.id ≠ arm.id

/-! ## Distinct lists -/

/-- What making sure of a contest's arms adds to the index: each new arm is listed for the contest,
and no contest lists an arm twice that did not do so before. -/
structure Enlists (contest : Contest) (before after : Registry) : Prop
    extends Extends before after where
  grounded : after.Grounded
  enlisted : ∀ {id : ObjectId} {arm : Arm}, before.arms.find? id = none →
    after.arms.find? id = some arm → id ∈ after.idsOf contest
  nodup : (∀ other, (before.idsOf other).Nodup) → ∀ other, (after.idsOf other).Nodup

namespace Enlists

theorem trans (hfirst : Enlists contest before middle) (hsecond : Enlists contest middle after) :
    Enlists contest before after where
  toExtends := hfirst.toExtends.trans hsecond.toExtends
  grounded := hsecond.grounded
  enlisted {id arm} hmissing hfound := by
    cases hmiddle : middle.arms.find? id with
    | none => exact hsecond.enlisted hmiddle hfound
    | some made => exact hsecond.listed (hfirst.enlisted hmissing hmiddle)
  nodup hbefore := hsecond.nodup (hfirst.nodup hbefore)

theorem ofSameArms (hsame : SameArms Arm.identity before after) (hgrounded : before.Grounded) :
    Enlists contest before after where
  toExtends := .ofSameArms hsame
  grounded := hsame.grounded hgrounded
  enlisted {id arm} hmissing hfound := by
    have harm := hsame.arms id
    rw [hmissing, hfound] at harm
    cases harm
  nodup hbefore other := by
    rw [hsame.idsOf]
    exact hbefore other

theorem createArm (hgrounded : registry.Grounded) (now : Instant) {offer : Offer}
    (hnone : registry.armOffering? contest offer.preset = none) :
    Enlists contest registry (registry.createArm contest now offer) where
  toExtends :=
    (Supplied.createArm hgrounded now (List.mem_singleton_self offer) hnone).toExtends
  grounded := hgrounded.createArm contest now offer
  enlisted {id arm} hmissing hfound := by
    rw [Registry.createArm, Table.find?_insert] at hfound
    split at hfound
    · next hdrawn =>
      rw [idsOf_createArm, if_pos rfl, hdrawn]
      exact List.mem_append_right _ (List.mem_singleton_self _)
    · rw [hmissing] at hfound
      cases hfound
  nodup hbefore other := by
    have hunlisted : Identifier.drawn .arms (registry.armsDrawn + 1) ∉ registry.idsOf contest := by
      intro hlisted
      obtain ⟨arm, hfound⟩ := hgrounded.on_record hlisted
      rw [hgrounded.find?_next_eq_none] at hfound
      cases hfound
    rw [idsOf_createArm]
    split
    · rw [← List.concat_eq_append, List.nodup_concat]
      exact ⟨hunlisted, hbefore contest⟩
    · exact hbefore other

theorem settleOffer (hgrounded : registry.Grounded) (contest : Contest) (now : Instant)
    (offer : Offer) : Enlists contest registry (registry.settleOffer contest now offer) := by
  cases hmet : registry.armOffering? contest offer.preset with
  | none =>
    rw [Registry.settleOffer, hmet]
    exact .createArm hgrounded now hmet
  | some arm =>
    refine .ofSameArms ?_ hgrounded
    rw [Registry.settleOffer, hmet]
    dsimp only
    split
    · exact .refl _ registry
    · exact .changeArm registry arm.id fun _ => rfl

theorem ensureArms (hgrounded : registry.Grounded) (contest : Contest) (offers : List Offer)
    (now : Instant) : Enlists contest registry (registry.ensureArms contest offers now).1 := by
  have hsettled : ∀ {opened : Registry}, Enlists contest registry opened →
      Enlists contest registry (offers.foldl (Registry.settleOffer contest now) opened) := by
    induction offers with
    | nil => exact fun hopened => hopened
    | cons offer rest ih =>
      exact fun hopened => ih (hopened.trans (.settleOffer hopened.grounded contest now offer))
  exact hsettled (.ofSameArms (sameArms_open Arm.identity contest registry) hgrounded)

end Enlists

theorem nodup_idsOf_restoreArm (hnodup : ∀ other, (registry.idsOf other).Nodup) (arm : Arm)
    (other : Contest) : ((registry.restoreArm arm).idsOf other).Nodup := by
  rw [idsOf_restoreArm]
  split
  · split
    · exact hnodup arm.contest
    · next hlisted =>
      rw [List.contains_iff_mem] at hlisted
      rw [← List.concat_eq_append, List.nodup_concat]
      exact ⟨hlisted, hnodup arm.contest⟩
  · exact hnodup other

theorem mem_idsOf_restoreArm (arm : Arm) (registry : Registry) (other : Contest)
    (id : ObjectId) :
    id ∈ (registry.restoreArm arm).idsOf other ↔
      id ∈ registry.idsOf other ∨ arm.id = id ∧ arm.contest = other := by
  rw [idsOf_restoreArm]
  by_cases hother : other = arm.contest
  · subst hother
    rw [if_pos rfl]
    by_cases hlisted : arm.id ∈ registry.idsOf arm.contest
    · rw [if_pos (by simpa using hlisted)]
      exact ⟨.inl, fun hmem => hmem.elim (fun hbefore => hbefore) fun hsame => hsame.1 ▸ hlisted⟩
    · rw [if_neg (by simpa using hlisted)]
      simp [eq_comm]
  · simp [hother, Ne.symm hother]

/-! ## Counting entries -/

/-- The arms of a contest carry an identifier as often as the contest lists it. -/
theorem countP_armsOf (hid_eq : ∀ {id : ObjectId} {arm : Arm}, registry.arms.find? id = some arm →
    arm.id = id) {id : ObjectId} {arm : Arm} (hfound : registry.arms.find? id = some arm)
    (contest : Contest) :
    ((registry.armsOf contest).countP fun listed => listed.id = id) =
      (registry.idsOf contest).count id := by
  rw [armsOf]
  induction registry.idsOf contest with
  | nil => rfl
  | cons other rest ih =>
    cases hother : registry.arms.find? other with
    | none =>
      have hne : other ≠ id := by
        rintro rfl
        rw [hfound] at hother
        cases hother
      rw [List.filterMap_cons_none hother, ih, List.count_cons_of_ne hne]
    | some listed =>
      rw [List.filterMap_cons_some hother, List.countP_cons, List.count_cons, ih, hid_eq hother]
      simp

theorem allArms_perm (registry : Registry) :
    registry.allArms.Perm (registry.index.keys.flatMap registry.armsOf) :=
  (List.mergeSort_perm _ _).flatMap_right _

/-- An identifier that only one contest lists is found once among all arms. -/
theorem countP_allArms (hid_eq : ∀ {id : ObjectId} {arm : Arm}, registry.arms.find? id = some arm →
    arm.id = id) (hnodup : ∀ other, (registry.idsOf other).Nodup) {id : ObjectId} {arm : Arm}
    (hfound : registry.arms.find? id = some arm) (hlisted : id ∈ registry.idsOf contest)
    (halone : ∀ other, other ≠ contest → id ∉ registry.idsOf other) :
    (registry.allArms.countP fun listed => listed.id = id) = 1 := by
  have hcount : ∀ other, ((registry.armsOf other).countP fun listed => listed.id = id) =
      if other = contest then 1 else 0 := by
    intro other
    rw [countP_armsOf hid_eq hfound]
    split
    · next hsame => rw [hsame, List.count_eq_one_of_mem (hnodup contest) hlisted]
    · next hother => exact List.count_eq_zero_of_not_mem (halone other hother)
  have hkeys : registry.index.keys.count contest = 1 := by
    have harm : arm ∈ registry.armsOf contest := List.mem_filterMap.mpr ⟨id, hlisted, hfound⟩
    have hkey := mem_keys_of_mem_armsOf harm
    rw [(List.mergeSort_perm _ _).mem_iff] at hkey
    exact List.count_eq_one_of_mem registry.index.distinct hkey
  rw [(allArms_perm registry).countP_eq, List.countP_flatMap,
    List.sum_map_eq_nsmul_single contest, hkeys]
  · simp [hcount]
  · intro other hother _
    simp [hcount, hother]

theorem listsOnce_restoreArm_iff (hgrounded : registry.Grounded)
    (hnodup : ∀ other, (registry.idsOf other).Nodup) (arm : Arm) :
    (registry.restoreArm arm).ListsOnce arm ↔
      ∀ other, arm.id ∈ registry.idsOf other → other = arm.contest := by
  have hfound : (registry.restoreArm arm).arms.find? arm.id = some arm :=
    Table.find?_insert_self _ _ _
  have hid_eq : ∀ {id : ObjectId} {known : Arm},
      (registry.restoreArm arm).arms.find? id = some known → known.id = id := by
    intro id known hknown
    rw [restoreArm, Table.find?_insert] at hknown
    split at hknown
    · next hid =>
      rw [← Option.some.inj hknown, hid]
    · exact hgrounded.id_eq hknown
  have hlisted : arm.id ∈ (registry.restoreArm arm).idsOf arm.contest :=
    (mem_idsOf_restoreArm arm registry arm.contest arm.id).mpr (.inr ⟨rfl, rfl⟩)
  have hown : ∀ {other}, arm.id ∈ (registry.restoreArm arm).idsOf other →
      arm ∈ (registry.restoreArm arm).armsOf other :=
    fun hother => List.mem_filterMap.mpr ⟨arm.id, hother, hfound⟩
  constructor
  · intro honce other hother
    by_contra hne
    have hstale := (mem_idsOf_restoreArm arm registry other arm.id).mpr (.inl hother)
    exact honce.alone other hne arm (hown hstale) rfl
  · intro hunlisted
    have halone : ∀ other, other ≠ arm.contest →
        arm.id ∉ (registry.restoreArm arm).idsOf other := by
      intro other hne hother
      obtain hbefore | ⟨-, hsame⟩ := (mem_idsOf_restoreArm arm registry other arm.id).mp hother
      · exact hne (hunlisted other hbefore)
      · exact hne hsame.symm
    refine ⟨countP_allArms hid_eq (nodup_idsOf_restoreArm hnodup arm) hfound hlisted halone,
      hown hlisted, fun other hne listed hmem hid => ?_⟩
    obtain ⟨id, hother, hlookup⟩ := List.mem_filterMap.mp hmem
    rw [← hid_eq hlookup, hid] at hother
    exact halone other hne hother

end Registry

/-! ## Who filed an arm -/

/-- Whether a turn filed an arm under a contest: it restored the arm as one of this contest, or it
created the arm for it. -/
def Turn.Files (turn : Turn) (id : ObjectId) (contest : Contest) : Prop :=
  (∃ arm, turn.command = .restoreArm arm ∧ arm.id = id ∧ arm.contest = contest) ∨
    ∃ offers arm, turn.command = .ensureArms contest offers ∧
      turn.before.registry.arms.find? id = none ∧
      turn.after.registry.arms.find? id = some arm

/-- Whether every contest lists exactly what was filed under it, and nothing twice. -/
structure ListsFiled (turns : List Turn) (registry : Registry) : Prop where
  mem_iff : ∀ id contest, id ∈ registry.idsOf contest ↔ ∃ turn ∈ turns, turn.Files id contest
  nodup : ∀ contest, (registry.idsOf contest).Nodup

variable {start governor : Governor} {turns : List Turn}

/-- A step restores an arm, makes sure of a contest's arms, or is neither call and leaves every
arm its identity. -/
theorem ArenaStep.filing_cases {command : Command} {answer : Except Refusal Reply} {arena : Arena}
    (hstep : ArenaStep governor command answer arena) :
    (∃ arm, command = .restoreArm arm ∧ arena.registry = governor.registry.restoreArm arm) ∨
    (∃ contest offers, command = .ensureArms contest offers ∧
      arena.registry = (governor.registry.ensureArms contest offers governor.clock).1) ∨
    (∀ arm, command ≠ .restoreArm arm) ∧ (∀ contest offers, command ≠ .ensureArms contest offers) ∧
      Registry.SameArms Arm.identity governor.registry arena.registry := by
  by_cases hrestore : ∃ arm, command = .restoreArm arm
  · obtain ⟨arm, rfl⟩ := hrestore
    cases hstep with
    | restoreArm => exact .inl ⟨arm, rfl, rfl⟩
    | spared himpossible | report himpossible | prune himpossible => cases himpossible
  by_cases hensure : ∃ contest offers, command = .ensureArms contest offers
  · obtain ⟨contest, offers, rfl⟩ := hensure
    cases hstep with
    | ensureArms => exact .inr (.inl ⟨contest, offers, rfl, rfl⟩)
    | spared himpossible | report himpossible | prune himpossible => cases himpossible
  obtain hsame | ⟨contest, offers, hcommand, -⟩ | ⟨arm, hcommand, -⟩ := hstep.roster.identity_cases
  · exact .inr (.inr ⟨fun arm hcommand => hrestore ⟨arm, hcommand⟩,
      fun contest offers hcommand => hensure ⟨contest, offers, hcommand⟩, hsame⟩)
  · exact absurd ⟨contest, offers, hcommand⟩ hensure
  · exact absurd ⟨arm, hcommand⟩ hrestore

/-- A turn lists what was listed before and what it files. -/
theorem Turn.mem_idsOf_iff (turn : Turn) (hgrounded : turn.before.registry.Grounded)
    (hstep : ArenaStep turn.before turn.command turn.answer turn.after.arena) (id : ObjectId)
    (contest : Contest) :
    id ∈ turn.after.registry.idsOf contest ↔
      turn.Files id contest ∨ id ∈ turn.before.registry.idsOf contest := by
  obtain ⟨arm, hcommand, hafter⟩ | ⟨supplied, offers, hcommand, hafter⟩ |
    ⟨hrestore, hensure, hsame⟩ := hstep.filing_cases
  · change turn.after.registry = _ at hafter
    simp only [Files, hcommand, hafter, Registry.mem_idsOf_restoreArm, Command.restoreArm.injEq,
      exists_eq_left', reduceCtorEq, false_and, exists_false, or_false]
    exact or_comm
  · change turn.after.registry = _ at hafter
    have henlists := Registry.Enlists.ensureArms hgrounded supplied offers turn.before.clock
    have hsupplied := (Registry.ensureArms_supplied hgrounded supplied offers turn.before.clock).2
    rw [← hafter] at henlists hsupplied
    constructor
    · intro hlisted
      obtain hbefore | ⟨rfl, hmissing⟩ := hsupplied.unlisted hlisted
      · exact .inr hbefore
      · obtain ⟨arm, hfound⟩ := henlists.grounded.on_record hlisted
        exact .inl (.inr ⟨offers, arm, hcommand, hmissing, hfound⟩)
    · rintro ((⟨arm, himpossible, -⟩ | ⟨_, arm, hsupply, hmissing, hfound⟩) | hbefore)
      · rw [hcommand] at himpossible
        cases himpossible
      · rw [hcommand] at hsupply
        cases hsupply
        exact henlists.enlisted hmissing hfound
      · exact henlists.listed hbefore
  · rw [show turn.after.registry.idsOf contest = turn.before.registry.idsOf contest from
      hsame.idsOf contest, or_iff_right]
    rintro (⟨arm, hcommand, -⟩ | ⟨offers, arm, hcommand, -⟩)
    · exact hrestore arm hcommand
    · exact hensure contest offers hcommand

theorem Turn.nodup_idsOf (turn : Turn) (hgrounded : turn.before.registry.Grounded)
    (hstep : ArenaStep turn.before turn.command turn.answer turn.after.arena)
    (hnodup : ∀ contest, (turn.before.registry.idsOf contest).Nodup) (contest : Contest) :
    (turn.after.registry.idsOf contest).Nodup := by
  rw [show turn.after.registry = turn.after.arena.registry from rfl]
  obtain ⟨arm, -, hafter⟩ | ⟨supplied, offers, -, hafter⟩ | ⟨-, -, hsame⟩ := hstep.filing_cases
  · rw [hafter]
    exact Registry.nodup_idsOf_restoreArm hnodup arm contest
  · rw [hafter]
    exact (Registry.Enlists.ensureArms hgrounded supplied offers _).nodup hnodup contest
  · rw [hsame.idsOf]
    exact hnodup contest

/-- Every contest lists exactly what was filed under it, and nothing twice. -/
theorem History.listsFiled (hhistory : History start turns governor)
    (hempty : start.registry = .empty) (hdrawn : ∀ turn ∈ turns, turn.RestoresDrawn) :
    ListsFiled turns governor.registry := by
  have hstart : start.registry.Grounded := hempty ▸ Registry.sound_empty.grounded
  induction hhistory with
  | start =>
    rw [hempty]
    exact ⟨fun id contest => by simp [Registry.idsOf, Registry.empty],
      fun contest => Registry.sound_empty.nodup_idsOf contest⟩
  | @turn turns before next command answer past step ih =>
    obtain ⟨-, hpast⟩ := List.forall_mem_cons.mp hdrawn
    have hbefore := past.grounded hstart hpast
    have hstep := (Governor.arenaStep_of_step step).1
    have hfiled := ih hpast
    let turn : Turn := ⟨before, command, answer, next⟩
    refine ⟨fun id contest => ?_, turn.nodup_idsOf hbefore hstep hfiled.nodup⟩
    rw [List.exists_mem_cons_iff, ← hfiled.mem_iff]
    exact turn.mem_idsOf_iff hbefore hstep id contest

/-- After a restore, which always succeeds, all arms list the arm once, among those of its own
contest and of no other one, exactly if no earlier call filed it under another contest. -/
theorem listsOnce_after_restore {settings : Settings} {entropy : Seeding} {notifier : Notifier}
    {clock : Instant} (hcreate : Governor.create settings entropy notifier clock = .ok start)
    (hhistory : History start turns governor) (hdrawn : ∀ turn ∈ turns, turn.RestoresDrawn)
    (arm : Arm) :
    ∃ next, governor.step (.restoreArm arm) = .ok (next, .ok .done) ∧
      (next.registry.ListsOnce arm ↔
        ∀ turn ∈ turns, ∀ contest, turn.Files arm.id contest → contest = arm.contest) := by
  obtain ⟨-, -, hempty⟩ := Governor.create_eq_ok hcreate
  have hstart : start.registry = .empty := by
    rw [Governor.registry, hempty]
    rfl
  have hfiled := hhistory.listsFiled hstart hdrawn
  have hgrounded := hhistory.grounded (hstart ▸ Registry.sound_empty.grounded) hdrawn
  refine ⟨_, rfl, ?_⟩
  refine (Registry.listsOnce_restoreArm_iff hgrounded hfiled.nodup arm).trans ?_
  simp only [hfiled.mem_iff, forall_exists_index, and_imp]
  exact ⟨fun hall turn hmem contest => hall contest turn hmem,
    fun hall contest turn hmem => hall turn hmem contest⟩

theorem listsOnce_after_restore_of_blocked_and_moved :
    let arm (symbol : String) (status : ArmStatus) : Arm :=
      { Arm.create (.given ⟨1⟩) ⟨symbol, "UP", .buy⟩ ⟨.given ⟨9⟩, .baseline⟩ ⟨0⟩ with status }
    ∃ (start : Governor) (turns : List Turn) (governor : Governor),
      Governor.create {} 0 .log ⟨0⟩ = .ok start ∧ History start turns governor ∧
      (turns.map Turn.command).reverse = [.restoreArm (arm "BTC" .eligible)] ∧
      (∀ turn ∈ turns, turn.RestoresDrawn) ∧
      (∃ next, governor.step (.restoreArm (arm "BTC" .blocked)) = .ok (next, .ok .done) ∧
        next.registry.ListsOnce (arm "BTC" .blocked)) ∧
      ∃ next, governor.step (.restoreArm (arm "ETH" .eligible)) = .ok (next, .ok .done) ∧
        ¬ next.registry.ListsOnce (arm "ETH" .eligible) := by
  intro arm
  obtain ⟨start, turns, governor, hcreate, hhistory, hcommands, -⟩ :=
    Governor.exists_history_of_replays {} [.restoreArm (arm "BTC" .eligible)] (fun _ _ => true)
      (by decide +kernel)
  have hcommand : ∀ turn ∈ turns, turn.command = .restoreArm (arm "BTC" .eligible) :=
    fun turn hturn => List.mem_singleton.mp (Turn.command_mem hcommands hturn)
  have hdrawn : ∀ turn ∈ turns, turn.RestoresDrawn := by
    intro turn hturn restored serial hrestored hid
    rw [hcommand turn hturn] at hrestored
    cases hrestored
    cases hid
  obtain ⟨blocked, hblocked, honce⟩ :=
    listsOnce_after_restore hcreate hhistory hdrawn (arm "BTC" .blocked)
  obtain ⟨moved, hmoved, htwice⟩ :=
    listsOnce_after_restore hcreate hhistory hdrawn (arm "ETH" .eligible)
  refine ⟨start, turns, governor, hcreate, hhistory, hcommands, hdrawn,
    ⟨blocked, hblocked, honce.mpr fun turn hturn contest hfiles => ?_⟩,
    ⟨moved, hmoved, fun hlists => ?_⟩⟩
  · obtain ⟨restored, hrestored, -, rfl⟩ | ⟨_, _, hensure, -⟩ := hfiles
    · rw [hcommand turn hturn] at hrestored
      cases hrestored
      rfl
    · rw [hcommand turn hturn] at hensure
      cases hensure
  · have hsome : turns ≠ [] := by
      rintro rfl
      cases hcommands
    obtain ⟨turn, hturn⟩ := List.exists_mem_of_ne_nil turns hsome
    have hcontest := htwice.mp hlists turn hturn (arm "BTC" .eligible).contest
      (.inl ⟨_, hcommand turn hturn, rfl, rfl⟩)
    exact absurd (congrArg Contest.symbol hcontest) (by decide)

/-- An arm that was restored for one symbol and then for another one is listed for both. -/
theorem relocated_arm_listed_twice :
    let arm (symbol : String) : Arm :=
      .create (.given ⟨1⟩) ⟨symbol, "UP", .buy⟩ ⟨.given ⟨9⟩, .baseline⟩ ⟨0⟩
    ∃ (start : Governor) (turns : List Turn) (governor next : Governor),
      Governor.create {} 0 .log ⟨0⟩ = .ok start ∧ History start turns governor ∧
      (turns.map Turn.command).reverse = [.restoreArm (arm "BTC")] ∧
      governor.step (.restoreArm (arm "ETH")) = .ok (next, .ok .done) ∧
      ¬ next.registry.ListsOnce (arm "ETH") ∧
      (next.registry.allArms.countP fun listed => listed.id = (arm "ETH").id) = 2 ∧
      arm "ETH" ∈ next.registry.armsOf (arm "BTC").contest := by
  intro arm
  obtain ⟨start, turns, governor, hcreate, hhistory, hcommands, hcheck⟩ :=
    Governor.exists_history_of_replays {} [.restoreArm (arm "BTC")] (fun _ governor =>
      let restored := governor.registry.restoreArm (arm "ETH")
      ((restored.index.keys.flatMap restored.armsOf).countP
        fun listed => listed.id = (arm "ETH").id) = 2 ∧
      restored.idsOf (arm "BTC").contest = [(arm "ETH").id]) (by decide +kernel)
  obtain ⟨hcount, hids⟩ := of_decide_eq_true hcheck
  let restored := governor.registry.restoreArm (arm "ETH")
  rw [← (Registry.allArms_perm restored).countP_eq] at hcount
  have hlisted : arm "ETH" ∈ restored.armsOf (arm "BTC").contest := by
    rw [Registry.armsOf, hids, List.mem_filterMap]
    exact ⟨_, List.mem_singleton_self _, Table.find?_insert_self _ _ _⟩
  refine ⟨start, turns, governor, _, hcreate, hhistory, hcommands, rfl, fun honce => ?_, hcount,
    hlisted⟩
  have hone := honce.one
  change (restored.allArms.countP _) = 1 at hone
  omega

end ExposureControl
