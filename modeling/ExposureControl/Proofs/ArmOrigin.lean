import ExposureControl.Proofs.Soundness

/-!
# Where an arm on record comes from

An arm that is on record after a command was on record before, or was put there by a restore, or
was created for an offer that no arm of the contest met.  This holds of every registry, however
its index of contests was muddled by restores, as long as drawn identifiers are not used up before
they are drawn.
-/

namespace ExposureControl

theorem Arm.preset_eq_of_identity {arm known : Arm} (hsame : arm.identity = known.identity) :
    arm.preset = known.preset :=
  congrArg (fun identity => identity.2.2.1) hsame

theorem Arm.contest_eq_of_identity {arm known : Arm} (hsame : arm.identity = known.identity) :
    arm.contest = known.contest :=
  congrArg (fun identity => identity.2.1) hsame

namespace Registry

variable {before middle after registry : Registry} {contest : Contest} {offers : List Offer}

/-- Whether what is listed stays listed, and what is on record stays on record as the same arm. -/
structure Extends (before after : Registry) : Prop where
  listed : ∀ {contest : Contest} {id : ObjectId}, id ∈ before.idsOf contest →
    id ∈ after.idsOf contest
  kept : ∀ {id : ObjectId} {known : Arm}, before.arms.find? id = some known →
    ∃ arm, after.arms.find? id = some arm ∧ arm.identity = known.identity

/-- What making sure of a contest's arms does, whatever the index: known arms keep their status,
and a new arm is there for an offer that no arm of the contest met. -/
structure Supplied (contest : Contest) (offers : List Offer) (before after : Registry) : Prop
    extends Extends before after where
  status : ∀ {id : ObjectId} {known arm : Arm}, before.arms.find? id = some known →
    after.arms.find? id = some arm → arm.status = known.status
  fresh : ∀ {id : ObjectId} {arm : Arm}, before.arms.find? id = none →
    after.arms.find? id = some arm → arm.contest = contest ∧
      (∃ offer ∈ offers, offer.preset = arm.preset) ∧
      before.armOffering? contest arm.preset = none
  unlisted : ∀ {other : Contest} {id : ObjectId}, id ∈ after.idsOf other →
    id ∈ before.idsOf other ∨ other = contest ∧ before.arms.find? id = none

theorem armOffering?_eq_none_iff (registry : Registry) (contest : Contest) (preset : ObjectId) :
    registry.armOffering? contest preset = none ↔
      ∀ id ∈ registry.idsOf contest, ∀ arm, registry.arms.find? id = some arm →
        arm.preset ≠ preset := by
  simp only [armOffering?, armsOf, List.find?_eq_none, List.mem_filterMap, decide_eq_true_eq]
  constructor
  · intro hnone id hlisted arm hfound
    exact hnone arm ⟨id, hlisted, hfound⟩
  · intro hnone arm hlisted
    obtain ⟨id, hlisted, hfound⟩ := hlisted
    exact hnone id hlisted arm hfound

/-! ## Extending a registry -/

namespace Extends

theorem refl (registry : Registry) : Extends registry registry where
  listed hlisted := hlisted
  kept hknown := ⟨_, hknown, rfl⟩

theorem trans (hfirst : Extends before middle) (hsecond : Extends middle after) :
    Extends before after where
  listed hlisted := hsecond.listed (hfirst.listed hlisted)
  kept hknown := by
    obtain ⟨made, hmiddle, hidentity⟩ := hfirst.kept hknown
    obtain ⟨arm, hafter, hidentity'⟩ := hsecond.kept hmiddle
    exact ⟨arm, hafter, hidentity'.trans hidentity⟩

theorem ofSameArms (hsame : SameArms Arm.identity before after) : Extends before after where
  listed {contest id} hlisted := by
    rw [hsame.idsOf]
    exact hlisted
  kept {id known} hknown := by
    have harm := hsame.arms id
    rw [hknown, Option.map_some] at harm
    exact Option.map_eq_some_iff.mp harm

theorem find?_eq_none (hextends : Extends before after) {id : ObjectId}
    (hmissing : after.arms.find? id = none) : before.arms.find? id = none := by
  cases hknown : before.arms.find? id with
  | none => rfl
  | some known =>
    obtain ⟨arm, hfound, -⟩ := hextends.kept hknown
    rw [hmissing] at hfound
    cases hfound

theorem armOffering?_eq_none (hextends : Extends before after) {preset : ObjectId}
    (hnone : after.armOffering? contest preset = none) :
    before.armOffering? contest preset = none := by
  rw [armOffering?_eq_none_iff] at hnone ⊢
  intro id hlisted known hknown
  obtain ⟨arm, hfound, hidentity⟩ := hextends.kept hknown
  rw [← Arm.preset_eq_of_identity hidentity]
  exact hnone id (hextends.listed hlisted) arm hfound

end Extends

/-! ## Supplying arms -/

namespace Supplied

theorem trans (hfirst : Supplied contest offers before middle)
    (hsecond : Supplied contest offers middle after) : Supplied contest offers before after where
  toExtends := hfirst.toExtends.trans hsecond.toExtends
  status hknown hfound := by
    obtain ⟨made, hmiddle, -⟩ := hfirst.kept hknown
    exact (hsecond.status hmiddle hfound).trans (hfirst.status hknown hmiddle)
  fresh {id arm} hmissing hfound := by
    cases hmiddle : middle.arms.find? id with
    | none =>
      obtain ⟨hcontest, hoffered, hnone⟩ := hsecond.fresh hmiddle hfound
      exact ⟨hcontest, hoffered, hfirst.armOffering?_eq_none hnone⟩
    | some made =>
      obtain ⟨kept, hkept, hidentity⟩ := hsecond.kept hmiddle
      obtain rfl := Option.some.inj (hkept.symm.trans hfound)
      rw [Arm.contest_eq_of_identity hidentity, Arm.preset_eq_of_identity hidentity]
      exact hfirst.fresh hmissing hmiddle
  unlisted hlisted := by
    cases hsecond.unlisted hlisted with
    | inl hmiddle => exact hfirst.unlisted hmiddle
    | inr hnew => exact .inr ⟨hnew.1, hfirst.find?_eq_none hnew.2⟩

theorem ofSameArms (hsame : SameArms (fun arm => (arm.identity, arm.status)) before after) :
    Supplied contest offers before after where
  toExtends := .ofSameArms (hsame.coarsen Prod.fst)
  status {id known arm} hknown hfound := by
    have harm := hsame.arms id
    rw [hknown, hfound] at harm
    exact congrArg Prod.snd (Option.some.inj harm)
  fresh {id arm} hmissing hfound := by
    have harm := hsame.arms id
    rw [hmissing, hfound] at harm
    cases harm
  unlisted {other id} hlisted := by
    rw [hsame.idsOf] at hlisted
    exact .inl hlisted

theorem createArm (hgrounded : registry.Grounded) (now : Instant) {offer : Offer}
    (hoffer : offer ∈ offers) (hnone : registry.armOffering? contest offer.preset = none) :
    Supplied contest offers registry (registry.createArm contest now offer) := by
  have hnew := hgrounded.find?_next_eq_none
  have hother : ∀ {id known}, registry.arms.find? id = some known →
      (registry.createArm contest now offer).arms.find? id = some known := by
    intro id known hknown
    have hid : id ≠ .drawn .arms (registry.armsDrawn + 1) := by
      rintro rfl
      rw [hnew] at hknown
      cases hknown
    exact (Table.find?_insert_of_ne hid).trans hknown
  refine ⟨⟨fun hlisted => ?_, fun hknown => ⟨_, hother hknown, rfl⟩⟩, fun hknown hfound => ?_,
    fun {id arm} hmissing hfound => ?_, fun hlisted => ?_⟩
  · rw [idsOf_createArm]
    split
    · next hcontest => exact List.mem_append_left _ (hcontest ▸ hlisted)
    · exact hlisted
  · rw [hother hknown] at hfound
    rw [Option.some.inj hfound]
  · rw [Registry.createArm, Table.find?_insert] at hfound
    split at hfound
    · obtain rfl := Option.some.inj hfound
      exact ⟨rfl, ⟨offer, hoffer, rfl⟩, hnone⟩
    · rw [hmissing] at hfound
      cases hfound
  · rw [idsOf_createArm] at hlisted
    split at hlisted
    · next hcontest =>
      subst hcontest
      cases List.mem_append.mp hlisted with
      | inl hbefore => exact .inl hbefore
      | inr hdrawn => exact .inr ⟨rfl, List.mem_singleton.mp hdrawn ▸ hnew⟩
    · exact .inl hlisted

end Supplied

theorem settleOffer_supplied (hgrounded : registry.Grounded) (contest : Contest) (now : Instant)
    {offer : Offer} (hoffer : offer ∈ offers) :
    (registry.settleOffer contest now offer).Grounded ∧
      Supplied contest offers registry (registry.settleOffer contest now offer) := by
  cases hmet : registry.armOffering? contest offer.preset with
  | none =>
    rw [settleOffer, hmet]
    exact ⟨hgrounded.createArm contest now offer, .createArm hgrounded now hoffer hmet⟩
  | some arm =>
    have hsame : SameArms (fun arm => (arm.identity, arm.status)) registry
        (registry.settleOffer contest now offer) := by
      rw [settleOffer, hmet]
      dsimp only
      split
      · exact .refl _ registry
      · exact .changeArm registry arm.id fun _ => rfl
    exact ⟨(hsame.coarsen Prod.fst).grounded hgrounded, .ofSameArms hsame⟩

theorem ensureArms_supplied (hgrounded : registry.Grounded) (contest : Contest)
    (offers : List Offer) (now : Instant) :
    (registry.ensureArms contest offers now).1.Grounded ∧
      Supplied contest offers registry (registry.ensureArms contest offers now).1 := by
  have hsettled : ∀ rest ⊆ offers, ∀ {opened : Registry}, opened.Grounded →
      Supplied contest offers registry opened →
      (rest.foldl (settleOffer contest now) opened).Grounded ∧
        Supplied contest offers registry (rest.foldl (settleOffer contest now) opened) := by
    intro rest hrest
    induction rest with
    | nil => exact fun hopened hsupplied => ⟨hopened, hsupplied⟩
    | cons offer rest ih =>
      intro opened hopened hsupplied
      obtain ⟨hoffer, hrest⟩ := List.cons_subset.mp hrest
      obtain ⟨hfirst, hmore⟩ := settleOffer_supplied hopened contest now hoffer
      exact ih hrest hfirst (hsupplied.trans hmore)
  have hopened := sameArms_open (fun arm => (arm.identity, arm.status)) contest registry
  exact hsettled offers (List.Subset.refl offers)
    ((hopened.coarsen Prod.fst).grounded hgrounded) (.ofSameArms hopened)

/-! ## Giving arms a status -/

/-- An operator's change of one arm's status. -/
theorem find?_setStatus (id : ObjectId) (status : ArmStatus) (now : Instant) (registry : Registry)
    (other : ObjectId) :
    (registry.setStatus id status now).1.arms.find? other =
      if other = id then
        (registry.arms.find? id).map fun arm => { arm with status, updatedAt := now }
      else registry.arms.find? other := by
  cases hknown : registry.arms.find? id with
  | none =>
    rw [setStatus, hknown]
    by_cases hother : other = id
    · rw [if_pos hother, hother]
      exact hknown
    · rw [if_neg hother]
  | some arm =>
    rw [setStatus, hknown]
    exact Table.find?_insert _ _ _ _

/-- An operator's change of the status of a preset's arms. -/
theorem find?_setPresetStatus (preset : ObjectId) (status : ArmStatus) (now : Instant)
    (registry : Registry) (id : ObjectId) :
    (registry.setPresetStatus preset status now).1.arms.find? id =
      (registry.arms.find? id).map fun arm =>
        if arm.preset = preset then { arm with status, updatedAt := now } else arm := by
  rw [setPresetStatus]
  dsimp only
  split
  · next huntouched =>
    -- no arm on record is of the preset
    rw [List.length_eq_zero_iff, List.filter_eq_nil_iff] at huntouched
    cases hknown : registry.arms.find? id with
    | none => rfl
    | some arm =>
      have hother := huntouched arm ((Table.mem_values_iff _ _).mpr ⟨id, hknown⟩)
      rw [decide_eq_true_eq] at hother
      rw [Option.map_some, if_neg hother]
  · exact Table.find?_mapValues _ _ _

end Registry

/-! ## Steps -/

/-- Where an arm on record after a command comes from. -/
inductive ArmOrigin (before : Registry) (command : Command) (id : ObjectId) (arm : Arm) : Prop
  /-- It was on record with the same status. -/
  | kept {known : Arm} (hknown : before.arms.find? id = some known)
      (hpreset : arm.preset = known.preset) (hstatus : arm.status = known.status)
  /-- It was on record, and an operator gave it its status. -/
  | restated {known : Arm} (hknown : before.arms.find? id = some known)
      (hpreset : arm.preset = known.preset)
      (hcommand : command = .setStatus id arm.status ∨
        command = .setPresetStatus arm.preset arm.status)
  /-- It was put on record as it is. -/
  | restored (hcommand : command = .restoreArm arm)
  /-- It was created for an offer that no arm of the contest met. -/
  | supplied {offers : List Offer} (hcommand : command = .ensureArms arm.contest offers)
      (hmissing : before.arms.find? id = none)
      (hoffered : ∃ offer ∈ offers, offer.preset = arm.preset)
      (hnone : before.armOffering? arm.contest arm.preset = none)

/-- Whether a turn puts no arm on record under an identifier that is yet to be drawn. -/
def Turn.RestoresDrawn (turn : Turn) : Prop :=
  ∀ arm serial, turn.command = .restoreArm arm → arm.id = .drawn .arms serial →
    serial ≤ turn.before.registry.armsDrawn

/-- A selection leaves every arm its standing, sound or not. -/
theorem Arena.sameArms_select {settings : Settings.Selection} {seeding : Seeding} {now : Instant}
    {contest : Contest} {context : Context} {arena next : Arena}
    {answer : Except Refusal Selection}
    (hselect : arena.select settings seeding now contest context = .ok (next, answer)) :
    Registry.SameArms Arm.standing arena.registry next.registry := by
  obtain ⟨refusal, hrefused⟩ | ⟨generator, arm, -, hcommit⟩ :=
    select_refused_or_committed settings seeding now contest context arena
  · rw [hrefused] at hselect
    cases hselect
    exact .refl _ _
  · rw [hcommit, commit] at hselect
    simp only [Fault.bind_eq_ok_iff, Prod.exists] at hselect
    obtain ⟨registry, logged, hlog, hselect⟩ := hselect
    have hlogged := Registry.sameArms_logPull hlog
    cases logged with
    | error refusal =>
      cases hselect
      exact hlogged
    | ok pull =>
      simp only [Fault.bind_eq_ok_iff, Fault.pure_eq_ok_iff, Prod.mk.injEq,
        Registry.chargeLedger_eq_ok_iff] at hselect
      obtain ⟨charged, ⟨rfl, -⟩, rfl, -⟩ := hselect
      exact ⟨hlogged.idsOf, hlogged.armsDrawn, hlogged.arms⟩

/-- What a command does to the standing of arms. -/
inductive RosterStep (before : Registry) (now : Instant) : Command → Registry → Prop
  | same {command : Command} {after : Registry}
      (hsame : Registry.SameArms Arm.standing before after) : RosterStep before now command after
  | ensureArms (contest : Contest) (offers : List Offer) :
      RosterStep before now (.ensureArms contest offers) (before.ensureArms contest offers now).1
  | restoreArm (arm : Arm) : RosterStep before now (.restoreArm arm) (before.restoreArm arm)
  | setStatus (id : ObjectId) (status : ArmStatus) :
      RosterStep before now (.setStatus id status) (before.setStatus id status now).1
  | setPresetStatus (preset : ObjectId) (status : ArmStatus) :
      RosterStep before now (.setPresetStatus preset status)
        (before.setPresetStatus preset status now).1

/-- Every step of the arena is one of the listed changes of the standing of arms. -/
theorem ArenaStep.roster {governor : Governor} {command : Command}
    {answer : Except Refusal Reply} {arena : Arena}
    (hstep : ArenaStep governor command answer arena) :
    RosterStep governor.registry governor.clock command arena.registry := by
  cases hstep with
  | spared => exact .same (.refl _ _)
  | ensureArms contest offers => exact .ensureArms contest offers
  | restoreArm arm => exact .restoreArm arm
  | setStatus id status => exact .setStatus id status
  | setPresetStatus preset status => exact .setPresetStatus preset status
  | select hselect => exact .same (Arena.sameArms_select hselect)
  | report _ hrecord =>
    obtain ⟨-, rfl, -⟩ | ⟨usable, registry, result, -, happly, rfl, -⟩ :=
      Arena.recordOutcome_cases hrecord
    · exact .same (.refl _ _)
    · exact .same (Registry.sameArms_applyReward happly)
  | resetArms contest =>
    apply RosterStep.same
    exact Registry.sameArms_foldl_changeArm (Arm.cleared governor.clock) (fun _ => rfl) _ _
  | logPull hlog => exact .same (Registry.sameArms_logPull hlog)
  | applyReward happly => exact .same (Registry.sameArms_applyReward happly)
  | chargeLedger hcharge =>
    obtain ⟨rfl, -⟩ := Registry.chargeLedger_eq_ok_iff.mp hcharge
    exact .same ⟨fun _ => rfl, rfl, fun _ => rfl⟩
  | seedLedger => exact .same ⟨fun _ => rfl, rfl, fun _ => rfl⟩
  | prune => exact .same ⟨fun _ => rfl, rfl, fun _ => rfl⟩

namespace RosterStep

variable {before after : Registry} {now : Instant} {command : Command}

/-- A step leaves every arm its identity, makes sure of a contest's arms or restores an arm. -/
theorem identity_cases (hstep : RosterStep before now command after) :
    Registry.SameArms Arm.identity before after ∨
      (∃ contest offers, command = .ensureArms contest offers ∧
        after = (before.ensureArms contest offers now).1) ∨
      ∃ arm, command = .restoreArm arm ∧ after = before.restoreArm arm := by
  cases hstep with
  | same hsame => exact .inl (hsame.coarsen Prod.fst)
  | ensureArms contest offers => exact .inr (.inl ⟨contest, offers, rfl, rfl⟩)
  | restoreArm arm => exact .inr (.inr ⟨arm, rfl, rfl⟩)
  | setStatus id status => exact .inl (.setStatus (fun _ _ _ => rfl) id status now before)
  | setPresetStatus preset status =>
    exact .inl (.setPresetStatus (fun _ _ _ => rfl) preset status now before)

theorem grounded (hstep : RosterStep before now command after) (hgrounded : before.Grounded)
    (hrestores : ∀ arm serial, command = .restoreArm arm → arm.id = .drawn .arms serial →
      serial ≤ before.armsDrawn) : after.Grounded := by
  obtain hsame | ⟨contest, offers, -, rfl⟩ | ⟨arm, rfl, rfl⟩ := hstep.identity_cases
  · exact hsame.grounded hgrounded
  · exact (Registry.ensureArms_supplied hgrounded contest offers now).1
  · exact hgrounded.restoreArm fun serial => hrestores arm serial rfl

theorem extended (hstep : RosterStep before now command after) (hgrounded : before.Grounded)
    (hcommand : ∀ arm, command ≠ .restoreArm arm) : Registry.Extends before after := by
  obtain hsame | ⟨contest, offers, -, rfl⟩ | ⟨arm, rfl, -⟩ := hstep.identity_cases
  · exact .ofSameArms hsame
  · exact (Registry.ensureArms_supplied hgrounded contest offers now).2.toExtends
  · exact absurd rfl (hcommand arm)

/-- A step that restores no arm lists nothing anew but arms that it creates. -/
theorem unlisted (hstep : RosterStep before now command after) (hgrounded : before.Grounded)
    (hcommand : ∀ arm, command ≠ .restoreArm arm) {contest : Contest} {id : ObjectId}
    (hlisted : id ∈ after.idsOf contest) :
    id ∈ before.idsOf contest ∨
      before.arms.find? id = none ∧ ∃ offers, command = .ensureArms contest offers := by
  obtain hsame | ⟨supplied, offers, rfl, rfl⟩ | ⟨arm, rfl, -⟩ := hstep.identity_cases
  · rw [hsame.idsOf] at hlisted
    exact .inl hlisted
  · obtain ⟨-, hsupplied⟩ := Registry.ensureArms_supplied hgrounded supplied offers now
    obtain hbefore | ⟨rfl, hmissing⟩ := hsupplied.unlisted hlisted
    · exact .inl hbefore
    · exact .inr ⟨hmissing, offers, rfl⟩
  · exact absurd rfl (hcommand arm)

/-- Every arm on record after a step has an origin. -/
theorem arm_origin (hstep : RosterStep before now command after) (hgrounded : before.Grounded)
    {id : ObjectId} {arm : Arm} (hfound : after.arms.find? id = some arm) :
    ArmOrigin before command id arm := by
  cases hstep with
  | same hsame =>
    have harm := hsame.arms id
    rw [hfound, Option.map_some] at harm
    obtain ⟨known, hknown, hstanding⟩ := Option.map_eq_some_iff.mp harm.symm
    have hidentity : arm.identity = known.identity := (congrArg Prod.fst hstanding).symm
    have hstatus : arm.status = known.status :=
      (congrArg (fun standing => standing.2.2) hstanding).symm
    exact .kept hknown (Arm.preset_eq_of_identity hidentity) hstatus
  | ensureArms contest offers =>
    obtain ⟨-, hsupplied⟩ := Registry.ensureArms_supplied hgrounded contest offers now
    cases hknown : before.arms.find? id with
    | none =>
      obtain ⟨rfl, hoffered, hnone⟩ := hsupplied.fresh hknown hfound
      exact .supplied rfl hknown hoffered hnone
    | some known =>
      obtain ⟨kept, hkept, hidentity⟩ := hsupplied.kept hknown
      obtain rfl := Option.some.inj (hkept.symm.trans hfound)
      exact .kept hknown (Arm.preset_eq_of_identity hidentity) (hsupplied.status hknown hfound)
  | restoreArm restored =>
    rw [Registry.restoreArm, Table.find?_insert] at hfound
    split at hfound
    · obtain rfl := Option.some.inj hfound
      exact .restored rfl
    · exact .kept hfound rfl rfl
  | setStatus changed status =>
    rw [Registry.find?_setStatus] at hfound
    split at hfound
    · next hid =>
      obtain ⟨known, hknown, rfl⟩ := Option.map_eq_some_iff.mp hfound
      subst hid
      exact .restated hknown rfl (.inl rfl)
    · exact .kept hfound rfl rfl
  | setPresetStatus preset status =>
    rw [Registry.find?_setPresetStatus] at hfound
    obtain ⟨known, hknown, hchanged⟩ := Option.map_eq_some_iff.mp hfound
    split at hchanged
    · next hpreset =>
      subst hchanged hpreset
      exact .restated hknown rfl (.inr rfl)
    · subst hchanged
      exact .kept hknown rfl rfl

end RosterStep

end ExposureControl
