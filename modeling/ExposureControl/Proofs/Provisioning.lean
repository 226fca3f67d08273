import ExposureControl.Proofs.ArmListing
import ExposureControl.Proofs.CounterBounds
import ExposureControl.Proofs.OfferSettling

/-!
# Provisioning

Where no arm is restored, arms come into being only where a contest is made sure of.  Every contest
then has one arm for each preset, and lists its arms in the order in which they were created; the
list of all arms has each of them once.  Offers that are met stay so until their contest is
provisioned again, and to offer them again changes nothing.
-/

namespace ExposureControl

def Turn.created (turn : Turn) : List (Contest × ObjectId) :=
  match turn.command, turn.answer with
  | .ensureArms contest _, .ok (.arms arms) =>
    (arms.filter fun arm => (turn.before.registry.arms.find? arm.id).isNone).map
      fun arm => (contest, arm.id)
  | _, _ => []

/-- The arms that a history created, oldest first, with the contest of each. -/
def created : List Turn → List (Contest × ObjectId)
  | [] => []
  | turn :: past => created past ++ turn.created

def createdFor (contest : Contest) (turns : List Turn) : List ObjectId :=
  ((created turns).filter fun entry => entry.1 = contest).map Prod.snd

theorem createdFor_cons (contest : Contest) (turn : Turn) (past : List Turn) :
    createdFor contest (turn :: past) = createdFor contest past ++
      (turn.created.filter fun entry => entry.1 = contest).map Prod.snd := by
  simp [createdFor, created]

namespace Registry

/-- Whether a registry has exactly the arms that a history created, where no contest has two arms
of one preset. -/
structure Enrols (registry : Registry) (turns : List Turn) : Prop where
  sound : registry.Sound
  distinct : registry.Distinct
  listed : ∀ contest, registry.idsOf contest = createdFor contest turns
  once : ((created turns).map Prod.snd).Nodup

/-- What a registry lists after a history. -/
structure Catalogued (registry : Registry) (turns : List Turn) : Prop where
  /-- A contest has one arm for each preset at most. -/
  presets : ∀ contest, ((registry.armsOf contest).map Arm.preset).Nodup
  /-- A contest lists its arms in order of creation. -/
  ordered : ∀ contest, (registry.armsOf contest).map Arm.id = createdFor contest turns
  /-- All arms are listed contest by contest, in ascending order. -/
  grouped : ∃ contests : List Contest, contests.Pairwise (fun a b => a.key < b.key) ∧
    registry.allArms = contests.flatMap registry.armsOf
  /-- No arm was created twice. -/
  once : ((created turns).map Prod.snd).Nodup
  /-- Every arm that was ever created is listed exactly once. -/
  complete : (registry.allArms.map fun arm => (arm.contest, arm.id)).Perm (created turns)

/-- What making sure of a contest's arms changes, and what it answers. -/
structure Provides (contest : Contest) (offers : List Offer) (before after : Registry)
    (arms : List Arm) : Prop where
  /-- All arms of the contest are given, new ones after those that were there. -/
  answered : arms = after.armsOf contest
  extended : ∃ fresh, arms.map Arm.id = before.idsOf contest ++ fresh ∧
    ∀ id ∈ fresh, before.arms.find? id = none
  /-- Exactly one of them is of an offered preset, in the role of its last offer. -/
  offered : ∀ preset role, lastRole? offers preset = some role →
    ∃ arm, arms.filter (fun arm => arm.preset = preset) = [arm] ∧ arm.role = role
  /-- An arm on record keeps all but its role and its time of change, and those as well if it is of
  another contest or its preset is not offered. -/
  kept : ∀ id arm, before.arms.find? id = some arm →
    ∃ role updatedAt, after.arms.find? id = some { arm with role, updatedAt } ∧
      (arm.contest ≠ contest ∨ (∀ offer ∈ offers, offer.preset ≠ arm.preset) →
        role = arm.role ∧ updatedAt = arm.updatedAt)
  others : ∀ other, other ≠ contest → after.armsOf other = before.armsOf other

variable {before after registry : Registry} {contest : Contest} {offers : List Offer}
  {turns : List Turn}

/-! ## What is listed -/

theorem nodup_presets (hsound : registry.Sound) (hdistinct : registry.Distinct)
    (contest : Contest) : ((registry.armsOf contest).map Arm.preset).Nodup := by
  have hids : ((registry.armsOf contest).map Arm.id).Nodup := by
    rw [map_id_armsOf hsound]
    exact hsound.nodup_idsOf contest
  apply List.Nodup.map_on _ (List.Nodup.of_map Arm.id hids)
  intro first hfirst second hsecond hpreset
  exact hdistinct ((mem_armsOf_iff hsound contest first).mp hfirst)
    ((mem_armsOf_iff hsound contest second).mp hsecond) hpreset

theorem mem_createdFor_iff (contest : Contest) (id : ObjectId) (turns : List Turn) :
    id ∈ createdFor contest turns ↔ (contest, id) ∈ created turns := by
  simp [createdFor]

theorem Enrols.catalogued (henrols : registry.Enrols turns) : registry.Catalogued turns := by
  have hordered : ∀ contest, (registry.armsOf contest).map Arm.id = createdFor contest turns :=
    fun contest => (map_id_armsOf henrols.sound contest).trans (henrols.listed contest)
  refine ⟨nodup_presets henrols.sound henrols.distinct, hordered,
    registry.exists_allArms_eq_flatMap, henrols.once, ?_⟩
  have hlisted : (registry.allArms.map fun arm => (arm.contest, arm.id)).Nodup := by
    apply List.Nodup.of_map Prod.snd
    rw [List.map_map]
    exact nodup_allArms henrols.sound
  rw [List.perm_ext_iff_of_nodup hlisted (List.Nodup.of_map Prod.snd henrols.once)]
  rintro ⟨contest, id⟩
  rw [← mem_createdFor_iff, ← hordered, List.mem_map, List.mem_map]
  constructor
  · rintro ⟨arm, harm, hentry⟩
    obtain ⟨rfl, rfl⟩ := Prod.mk.inj hentry
    exact ⟨arm, (mem_allArms_iff henrols.sound arm).mp harm, rfl⟩
  · rintro ⟨arm, harm, rfl⟩
    obtain ⟨-, rfl⟩ := (mem_armsOf_iff henrols.sound contest arm).mp harm
    exact ⟨arm, (mem_allArms_iff henrols.sound arm).mpr harm, rfl⟩

/-! ## Making sure of a contest's arms -/

theorem filter_eq_singleton {α β : Type} [DecidableEq β] {f : α → β} {items : List α} {item : α}
    (hdistinct : (items.map f).Nodup) (hitem : item ∈ items) :
    items.filter (fun other => f other = f item) = [item] := by
  induction items with
  | nil => cases hitem
  | cons first rest ih =>
    obtain ⟨hfirst, hrest⟩ := List.nodup_cons.mp hdistinct
    cases List.mem_cons.mp hitem with
    | inl hhead =>
      subst hhead
      have hnone : rest.filter (fun other => f other = f item) = [] := by
        rw [List.filter_eq_nil_iff]
        intro other hother hsame
        exact hfirst (of_decide_eq_true hsame ▸ List.mem_map_of_mem hother)
      rw [List.filter_cons_of_pos (by simp), hnone]
    | inr htail =>
      have hne : f first ≠ f item := fun hsame => hfirst (hsame ▸ List.mem_map_of_mem htail)
      rw [List.filter_cons_of_neg (by simpa using hne), ih hrest htail]

theorem ensureArms_provides (hsound : registry.Sound) (hdistinct : registry.Distinct)
    (contest : Contest) (offers : List Offer) (now : Instant) :
    Provides contest offers registry (registry.ensureArms contest offers now).1
      (registry.ensureArms contest offers now).2 := by
  have hsettled := ensureArms_settled hsound contest offers now
  have hafter := (ensureArms_spec hsound contest offers now).1
  refine ⟨rfl, ?_, fun preset role hrole => ?_, fun id arm hknown => ?_, fun other hother => ?_⟩
  · obtain ⟨fresh, hlisted, hnew⟩ := hsettled.listed
    exact ⟨fresh, (map_id_armsOf hafter contest).trans hlisted, hnew⟩
  · obtain ⟨arm, hheld, rfl, hsettledRole⟩ := hsettled.met hrole
    exact ⟨arm, filter_eq_singleton (nodup_presets hafter (hsettled.distinct hdistinct) contest)
      ((mem_armsOf_iff hafter contest arm).mpr hheld), hsettledRole⟩
  · obtain ⟨role, updatedAt, hfound, hsame⟩ := hsettled.kept hknown
    rw [lastRole?_eq_none_iff] at hsame
    exact ⟨role, updatedAt, hfound, hsame⟩
  · rw [armsOf, armsOf, hsettled.others hother]
    apply List.filterMap_congr
    intro id hid
    obtain ⟨arm, hknown, rfl⟩ := (hsound.mem_idsOf_iff other id).mp hid
    obtain ⟨role, updatedAt, hfound, hsame⟩ := hsettled.kept hknown
    obtain ⟨rfl, rfl⟩ := hsame (.inl hother)
    exact hfound.trans hknown.symm

/-- What was given but not on record before was created. -/
theorem Provides.created_eq {governor : Governor} {arms : List Arm}
    (hprovides : Provides contest offers governor.registry after arms)
    (hsound : governor.registry.Sound) (next : Governor) :
    ∃ fresh, arms.map Arm.id = governor.registry.idsOf contest ++ fresh ∧
      (∀ id ∈ fresh, governor.registry.arms.find? id = none) ∧
      Turn.created ⟨governor, .ensureArms contest offers, .ok (.arms arms), next⟩ =
        fresh.map (Prod.mk contest) := by
  obtain ⟨fresh, hids, hnew⟩ := hprovides.extended
  refine ⟨fresh, hids, hnew, ?_⟩
  have hold : (governor.registry.idsOf contest).filter
      (fun id => (governor.registry.arms.find? id).isNone) = [] := by
    rw [List.filter_eq_nil_iff]
    intro id hid
    obtain ⟨arm, hknown, -⟩ := (hsound.mem_idsOf_iff contest id).mp hid
    simp [hknown]
  have hfresh : fresh.filter (fun id => (governor.registry.arms.find? id).isNone) = fresh := by
    rw [List.filter_eq_self]
    intro id hid
    simp [hnew id hid]
  calc Turn.created ⟨governor, .ensureArms contest offers, .ok (.arms arms), next⟩
      = ((arms.map Arm.id).filter fun id => (governor.registry.arms.find? id).isNone).map
          (Prod.mk contest) := by
        rw [List.filter_map, List.map_map]
        rfl
    _ = fresh.map (Prod.mk contest) := by
        rw [hids, List.filter_append, hold, hfresh, List.nil_append]

/-! ## What keeps the roll -/

theorem SameArms.exists_known (hsame : SameArms Arm.identity before after) {arm : Arm}
    (hheld : after.Holds contest arm) :
    ∃ known, before.Holds contest known ∧ known.identity = arm.identity := by
  obtain ⟨hfound, hcontest⟩ := hheld
  have harm := hsame.arms arm.id
  rw [hfound, Option.map_some] at harm
  obtain ⟨known, hknown, hidentity⟩ := Option.map_eq_some_iff.mp harm.symm
  have hid : known.id = arm.id := congrArg Prod.fst hidentity
  exact ⟨known, ⟨hid ▸ hknown, (Arm.contest_eq_of_identity hidentity).trans hcontest⟩, hidentity⟩

theorem SameArms.distinct (hsame : SameArms Arm.identity before after)
    (hdistinct : before.Distinct) : after.Distinct := by
  intro contest first second hfirst hsecond hpreset
  obtain ⟨known, hknown, hidentity⟩ := hsame.exists_known hfirst
  obtain ⟨known', hknown', hidentity'⟩ := hsame.exists_known hsecond
  have hone : known = known' := hdistinct hknown hknown' <|
    calc known.preset = first.preset := Arm.preset_eq_of_identity hidentity
      _ = second.preset := hpreset
      _ = known'.preset := (Arm.preset_eq_of_identity hidentity').symm
  have hids : first.id = second.id :=
    calc first.id = known.id := (congrArg Prod.fst hidentity).symm
      _ = known'.id := congrArg Arm.id hone
      _ = second.id := congrArg Prod.fst hidentity'
  exact Option.some.inj (hfirst.1.symm.trans (hids ▸ hsecond.1))

theorem Enrols.ofSameArms (henrols : before.Enrols turns)
    (hsame : SameArms Arm.identity before after) {turn : Turn} (hcreated : turn.created = []) :
    after.Enrols (turn :: turns) := by
  refine ⟨hsame.sound henrols.sound, hsame.distinct henrols.distinct, fun contest => ?_, ?_⟩
  · rw [hsame.idsOf, henrols.listed, createdFor_cons, hcreated]
    simp
  · rw [created, hcreated, List.append_nil]
    exact henrols.once

/-- Making sure of a contest's arms enrols those that it creates. -/
theorem Enrols.ensureArms {governor : Governor} (henrols : governor.registry.Enrols turns)
    (contest : Contest) (offers : List Offer) (next : Governor) :
    (governor.registry.ensureArms contest offers governor.clock).1.Enrols
      (⟨governor, .ensureArms contest offers,
        .ok (.arms (governor.registry.ensureArms contest offers governor.clock).2), next⟩ ::
        turns) := by
  have hprovides := ensureArms_provides henrols.sound henrols.distinct contest offers governor.clock
  have hsettled := ensureArms_settled henrols.sound contest offers governor.clock
  have hafter := (ensureArms_spec henrols.sound contest offers governor.clock).1
  obtain ⟨fresh, hids, hnew, hcreated⟩ := hprovides.created_eq henrols.sound next
  rw [hprovides.answered, map_id_armsOf hafter] at hids
  refine ⟨hafter, hsettled.distinct henrols.distinct, fun other => ?_, ?_⟩
  · rw [createdFor_cons, hcreated, ← henrols.listed]
    by_cases hother : other = contest
    · subst hother
      rw [hids, List.filter_eq_self.mpr (by simp), List.map_map]
      simp [Function.comp_def]
    · rw [hsettled.others hother, List.filter_eq_nil_iff.mpr (by simp [Ne.symm hother]),
        List.map_nil, List.append_nil]
  · rw [created, hcreated, List.map_append, List.map_map, List.nodup_append']
    refine ⟨henrols.once, ?_, ?_⟩
    · have hnodup := hafter.nodup_idsOf contest
      rw [hids] at hnodup
      simpa [Function.comp_def] using (List.nodup_append'.mp hnodup).2.1
    · -- what was created before is on record, and what is created now was not
      intro id hold hfresh
      simp only [Function.comp_def, List.map_id'] at hfresh
      obtain ⟨⟨listing, id⟩, hentry, rfl⟩ := List.mem_map.mp hold
      have hlisted := (mem_createdFor_iff listing id turns).mpr hentry
      rw [← henrols.listed] at hlisted
      obtain ⟨arm, hknown, -⟩ := (henrols.sound.mem_idsOf_iff listing id).mp hlisted
      cases hknown.symm.trans (hnew id hfresh)

theorem SameArms.meets (hsame : SameArms (fun arm => (arm.identity, arm.role)) before after)
    (hsound : before.Sound) (hdistinct : before.Distinct)
    (hopened : after.index.find? contest ≠ none) (hmeets : before.Meets contest offers) :
    after.Meets contest offers := by
  have hidentity := hsame.coarsen Prod.fst
  rw [meets_iff (hidentity.sound hsound) (hidentity.distinct hdistinct)]
  refine ⟨hopened, fun offer hoffer => ?_⟩
  obtain ⟨known, ⟨hknown, hcontest⟩, hpreset, hrole⟩ :=
    ((meets_iff hsound hdistinct).mp hmeets).2 offer hoffer
  have harm := hsame.arms known.id
  rw [hknown, Option.map_some] at harm
  obtain ⟨arm, hfound, hviews⟩ := Option.map_eq_some_iff.mp harm
  obtain ⟨hidentity, hkept⟩ := Prod.mk.inj hviews
  have hid : arm.id = known.id := congrArg Prod.fst hidentity
  exact ⟨arm, ⟨hid ▸ hfound, (Arm.contest_eq_of_identity hidentity).trans hcontest⟩,
    (Arm.preset_eq_of_identity hidentity).trans hpreset, hkept.trans hrole⟩

end Registry

/-! ## Steps -/

/-- A step that neither restores arms nor makes sure of any lists the same arms. -/
theorem RosterStep.sameArms {before after : Registry} {now : Instant} {command : Command}
    (hstep : RosterStep before now command after)
    (hrestores : ∀ arm, command ≠ .restoreArm arm)
    (hensures : ∀ contest offers, command ≠ .ensureArms contest offers) :
    Registry.SameArms Arm.identity before after := by
  obtain hsame | ⟨contest, offers, rfl, -⟩ | ⟨arm, rfl, -⟩ := hstep.identity_cases
  · exact hsame
  · exact absurd rfl (hensures contest offers)
  · exact absurd rfl (hrestores arm)

namespace ArenaStep

variable {governor next : Governor} {command : Command} {answer : Except Refusal Reply}
  {arena : Arena} {turns : List Turn} {contest : Contest} {offers : List Offer}

theorem find?_index (hstep : ArenaStep governor command answer arena)
    (hsound : governor.registry.Sound) (hopened : governor.registry.index.find? contest ≠ none) :
    arena.registry.index.find? contest ≠ none := by
  cases hstep with
  | ensureArms supplied others =>
    exact Registry.find?_index_settleOffers _ _ (Registry.find?_index_update _ hopened)
  | restoreArm arm => exact Registry.find?_index_update _ hopened
  | select hselect =>
    obtain ⟨-, rfl⟩ | ⟨generator, arm, -, -, rfl, -⟩ := Arena.select_cases hsound hselect
    · exact hopened
    · exact hopened
  | report _ hrecord =>
    obtain ⟨-, rfl, -⟩ | ⟨usable, registry, result, -, happly, rfl, -⟩ :=
      Arena.recordOutcome_cases hrecord
    · exact hopened
    · rwa [Registry.index_applyReward happly]
  | setStatus id status =>
    obtain ⟨arms, harms⟩ := Registry.exists_setStatus id status governor.clock governor.registry
    rwa [harms]
  | setPresetStatus preset status =>
    obtain ⟨arms, harms⟩ :=
      Registry.exists_setPresetStatus preset status governor.clock governor.registry
    rwa [harms]
  | resetArms cleared =>
    obtain ⟨arms, harms⟩ := Registry.exists_resetStats cleared governor.clock governor.registry
    rwa [harms]
  | logPull hlog =>
    obtain rfl | ⟨arm, stats, histories, decisions, -, rfl⟩ := Registry.logPull_cases hlog
    · exact hopened
    · exact hopened
  | applyReward happly => rwa [Registry.index_applyReward happly]
  | chargeLedger hcharge =>
    obtain ⟨rfl, -⟩ := Registry.chargeLedger_eq_ok_iff.mp hcharge
    exact hopened
  | spared | seedLedger | prune => exact hopened

theorem enrols (hstep : ArenaStep governor command answer next.arena)
    (henrols : governor.registry.Enrols turns) (hcommand : ∀ arm, command ≠ .restoreArm arm) :
    next.registry.Enrols (⟨governor, command, answer, next⟩ :: turns) := by
  cases command with
  | ensureArms contest offers =>
    rw [Governor.registry]
    generalize harena : next.arena = arena at hstep
    cases hstep with
    | ensureArms => exact henrols.ensureArms contest offers next
    | spared himpossible | report himpossible | prune himpossible => cases himpossible
  | _ =>
    exact henrols.ofSameArms (hstep.roster.sameArms hcommand fun _ _ => Command.noConfusion) rfl

/-- Offers that are met stay so where no command offers one of their presets in another role, and
the arms of the contest stay the same arms, in the same order. -/
theorem meets (hstep : ArenaStep governor command answer arena)
    (hsound : governor.registry.Sound) (hdistinct : governor.registry.Distinct)
    (hcommand : ∀ arm, command ≠ .restoreArm arm)
    (hagree : ∀ others, command = .ensureArms contest others → OffersAgree others offers)
    (hmeets : governor.registry.Meets contest offers) :
    arena.registry.Meets contest offers ∧
      (governor.registry.armsOf contest).map Arm.identity <+:
        (arena.registry.armsOf contest).map Arm.identity := by
  have hopened := hstep.find?_index hsound hmeets.opened
  have hviewed : Registry.SameArms (fun arm => (arm.identity, arm.role)) governor.registry
      arena.registry → arena.registry.Meets contest offers ∧
        (governor.registry.armsOf contest).map Arm.identity <+:
          (arena.registry.armsOf contest).map Arm.identity := by
    intro hsame
    exact ⟨hsame.meets hsound hdistinct hopened hmeets,
      ((hsame.coarsen Prod.fst).map_armsOf contest).symm ▸ List.prefix_rfl⟩
  have hroster := hstep.roster
  generalize arena.registry = after at hroster hopened hviewed ⊢
  cases hroster with
  | same hsame => exact hviewed (hsame.coarsen fun standing => (standing.1, standing.2.1))
  | ensureArms other others =>
    have hsettled := Registry.ensureArms_settled hsound other others governor.clock
    refine ⟨hsettled.meets hsound hdistinct ?_ hopened ?_ hmeets,
      hsettled.isPrefix_armsOf hsound contest⟩
    · exact (Registry.ensureArms_spec hsound other others governor.clock).1
    · rintro rfl
      exact hagree others rfl
  | restoreArm arm => exact absurd rfl (hcommand arm)
  | setStatus id status => exact hviewed (.setStatus (fun _ _ _ => rfl) id status _ _)
  | setPresetStatus preset status =>
    exact hviewed (.setPresetStatus (fun _ _ _ => rfl) preset status _ _)

end ArenaStep

/-! ## Histories -/

namespace History

variable {start governor final : Governor} {turns past later : List Turn} {contest : Contest}
  {offers : List Offer}

/-- A history that restores no arm enrols the arms that it creates. -/
theorem enrols (hhistory : History start turns governor) (hstart : start.registry.Enrols past)
    (hrestores : ∀ turn ∈ turns, ∀ arm, turn.command ≠ .restoreArm arm) :
    governor.registry.Enrols (turns ++ past) := by
  induction hhistory with
  | start => exact hstart
  | turn hpast hstep ih =>
    obtain ⟨hcommand, hrestored⟩ := List.forall_mem_cons.mp hrestores
    exact (Governor.arenaStep_of_step hstep).1.enrols (ih hrestored) hcommand

/-- Offers that are met stay so as long as none of their presets is offered to the contest in
another role, and the arms of the contest stay the same arms, in the same order. -/
theorem meets (hlater : History governor later final)
    (henrols : governor.registry.Enrols turns)
    (hrestores : ∀ turn ∈ later, ∀ arm, turn.command ≠ .restoreArm arm)
    (hagree : ∀ turn ∈ later, ∀ others, turn.command = .ensureArms contest others →
      OffersAgree others offers)
    (hmeets : governor.registry.Meets contest offers) :
    final.registry.Meets contest offers ∧
      (governor.registry.armsOf contest).map Arm.identity <+:
        (final.registry.armsOf contest).map Arm.identity := by
  induction hlater with
  | start => exact ⟨hmeets, List.prefix_rfl⟩
  | turn hpast hstep ih =>
    obtain ⟨hcommand, hrestored⟩ := List.forall_mem_cons.mp hrestores
    obtain ⟨hagreeNow, hagreed⟩ := List.forall_mem_cons.mp hagree
    obtain ⟨hmet, hprefix⟩ := ih hrestored hagreed
    have hroll := hpast.enrols henrols hrestored
    obtain ⟨hmeetsNow, hprefixNow⟩ := (Governor.arenaStep_of_step hstep).1.meets hroll.sound
      hroll.distinct hcommand hagreeNow hmet
    exact ⟨hmeetsNow, hprefix.trans hprefixNow⟩

theorem arena_eq (hlater : History governor later final)
    (hspared : ∀ turn ∈ later, turn.command.sparesArena = true) :
    final.arena = governor.arena := by
  induction hlater with
  | start => rfl
  | turn hpast hstep ih =>
    obtain ⟨hnow, hearlier⟩ := List.forall_mem_cons.mp hspared
    exact (Governor.sameArena_of_step hnow hstep).arena.trans (ih hearlier)

end History

/-- What making sure of the arms of a contest does at a governor, and whenever it is done again. -/
structure Governor.Provisions (governor : Governor) (turns : List Turn) (contest : Contest)
    (offers : List Offer) (next : Governor) (arms : List Arm) : Prop where
  answered : governor.step (.ensureArms contest offers) = .ok (next, .ok (.arms arms))
  provides : Registry.Provides contest offers governor.registry next.registry arms
  ordered : arms.map Arm.id =
    createdFor contest (⟨governor, .ensureArms contest offers, .ok (.arms arms), next⟩ :: turns)
  /-- Where the offers give no preset two roles, and none of their presets is offered to the contest
  in another role since, to offer them again changes nothing, and answers with the same arms. -/
  again : OffersAgree offers offers → ∀ later final, History next later final →
    (∀ turn ∈ later, ∀ arm, turn.command ≠ .restoreArm arm) →
    (∀ turn ∈ later, ∀ others, turn.command = .ensureArms contest others →
      OffersAgree others offers) →
    final.step (.ensureArms contest offers) =
        .ok (final, .ok (.arms (final.registry.armsOf contest))) ∧
      arms.map Arm.identity <+: (final.registry.armsOf contest).map Arm.identity ∧
      ((∀ turn ∈ later, turn.command.sparesArena = true) →
        final.registry.armsOf contest = arms)

/-- Without restored arms, a governor has one arm for each preset of a contest at most, lists every
arm that it ever created once, and provisions a contest as offered. -/
theorem arms_created_once {settings : Settings} {entropy : Seeding} {notifier : Notifier}
    {clock : Instant} {start governor : Governor} {turns : List Turn}
    (hcreate : Governor.create settings entropy notifier clock = .ok start)
    (hhistory : History start turns governor)
    (hrestores : ∀ turn ∈ turns, ∀ arm, turn.command ≠ .restoreArm arm) :
    governor.registry.Catalogued turns ∧
      ∀ contest offers, ∃ next arms, governor.Provisions turns contest offers next arms := by
  obtain ⟨-, -, harena⟩ := Governor.create_eq_ok hcreate
  have hempty : start.registry.Enrols [] := by
    have hdistinct : Registry.empty.Distinct := by
      intro contest first second hfirst
      cases hfirst.1
    rw [Governor.registry, harena]
    exact ⟨Registry.sound_empty, hdistinct, fun _ => rfl, List.nodup_nil⟩
  have henrols : governor.registry.Enrols turns := by
    rw [← List.append_nil turns]
    exact hhistory.enrols hempty hrestores
  refine ⟨henrols.catalogued, fun contest offers => ?_⟩
  let next := (governor.ensureArms contest offers).1
  let arms := (governor.ensureArms contest offers).2
  have hprovides : Registry.Provides contest offers governor.registry next.registry arms :=
    Registry.ensureArms_provides henrols.sound henrols.distinct contest offers governor.clock
  have hnext := henrols.ensureArms contest offers next
  refine ⟨next, arms, rfl, hprovides, ?_, ?_⟩
  · rw [hprovides.answered]
    exact hnext.catalogued.ordered contest
  · intro hagree later final hlater hrestored hagreed
    have hmeets : next.registry.Meets contest offers :=
      Registry.meets_ensureArms henrols.sound henrols.distinct hagree contest governor.clock
    obtain ⟨hmet, hprefix⟩ := hlater.meets hnext hrestored hagreed hmeets
    refine ⟨?_, hprovides.answered ▸ hprefix, fun hspared => ?_⟩
    · have hagain := Registry.ensureArms_of_meets hmet final.clock
      simp only [Governor.step, Governor.ensureArms, Governor.withRegistry, Governor.withArena,
        Arena.withRegistry, Governor.answering]
      rw [Governor.registry] at hagain
      rw [hagain]
      rfl
    · rw [hprovides.answered, Governor.registry, hlater.arena_eq hspared]
      rfl

/-- Two contests with arms of one preset, where another preset was offered in two roles: the last
offer of it counts, and to offer it in that role again is to offer what is there. -/
theorem arms_created_once_of_two_contests :
    ∃ start turns governor,
      Governor.create {} 0 .log ⟨0⟩ = .ok start ∧ History start turns governor ∧
      (∀ turn ∈ turns, ∀ arm, turn.command ≠ .restoreArm arm) ∧
      (governor.registry.armsOf ⟨"ETH", "UP", .buy⟩).map (fun arm => (arm.preset, arm.role)) =
        [(.given ⟨1⟩, .baseline)] ∧
      (governor.registry.armsOf ⟨"BTC", "UP", .buy⟩).map (fun arm => (arm.preset, arm.role)) =
        [(.given ⟨2⟩, .baseline), (.given ⟨1⟩, .candidate)] ∧
      governor.registry.Catalogued turns ∧
      ∃ next arms,
        governor.Provisions turns ⟨"BTC", "UP", .buy⟩ [⟨.given ⟨2⟩, .baseline⟩] next arms := by
  let offer (n : Nat) (role : ArmRole) : Offer := ⟨.given ⟨n⟩, role⟩
  let commands : List Command :=
    [.ensureArms ⟨"ETH", "UP", .buy⟩ [offer 1 .baseline],
      .ensureArms ⟨"BTC", "UP", .buy⟩
        [offer 2 .candidate, offer 1 .candidate, offer 2 .baseline]]
  obtain ⟨start, turns, governor, hcreate, hhistory, hcommands, hcheck⟩ :=
    Governor.exists_history_of_replays {} commands (fun _ governor =>
        (governor.registry.armsOf ⟨"ETH", "UP", .buy⟩).map (fun arm => (arm.preset, arm.role)) ==
          [(.given ⟨1⟩, .baseline)] &&
        (governor.registry.armsOf ⟨"BTC", "UP", .buy⟩).map (fun arm => (arm.preset, arm.role)) ==
          [(.given ⟨2⟩, .baseline), (.given ⟨1⟩, .candidate)])
      (by decide +kernel)
  simp only [Bool.and_eq_true, beq_iff_eq] at hcheck
  have hrestores : ∀ turn ∈ turns, ∀ arm, turn.command ≠ .restoreArm arm := by
    intro turn hturn arm hrestore
    have hcommand := Turn.command_mem hcommands hturn
    rw [hrestore] at hcommand
    simp [commands] at hcommand
  obtain ⟨hcatalogued, hprovisions⟩ := arms_created_once hcreate hhistory hrestores
  exact ⟨start, turns, governor, hcreate, hhistory, hrestores, hcheck.1, hcheck.2, hcatalogued,
    hprovisions _ _⟩

end ExposureControl
