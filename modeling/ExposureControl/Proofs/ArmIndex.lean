import ExposureControl.Arms.Registry
import Mathlib.Data.List.Nodup

/-!
# The index of arms

Arms are kept twice over: by identifier, and by contest in a list of identifiers.  In a sound
registry the two agree, so that loading a contest gives exactly the arms that belong to it.  All
changes of a registry keep it sound, as long as an arm that is put on record stays in its contest.
-/

namespace ExposureControl

/-- What no change of a registry touches in an arm. -/
def Arm.identity (arm : Arm) : ObjectId × Contest × ObjectId × Instant :=
  (arm.id, arm.contest, arm.preset, arm.createdAt)

/-- What statistics leave alone in an arm. -/
def Arm.standing (arm : Arm) : (ObjectId × Contest × ObjectId × Instant) × ArmRole × ArmStatus :=
  (arm.identity, arm.role, arm.status)

def Arm.cleared (now : Instant) (arm : Arm) : Arm :=
  { arm with stats := .empty, updatedAt := now }

namespace Registry

variable {before middle after registry : Registry}

/-- Whether an arm is on record under exactly a contest. -/
def Holds (registry : Registry) (contest : Contest) (arm : Arm) : Prop :=
  registry.arms.find? arm.id = some arm ∧ arm.contest = contest

/-- Whether arms are kept under their own identifiers, every listed identifier is of an arm on
record, and none is yet to be drawn.  This holds of unsound registries too. -/
structure Grounded (registry : Registry) : Prop where
  id_eq : ∀ {id : ObjectId} {arm : Arm}, registry.arms.find? id = some arm → arm.id = id
  on_record : ∀ {contest : Contest} {id : ObjectId}, id ∈ registry.idsOf contest →
    ∃ arm, registry.arms.find? id = some arm
  drawn_le : ∀ {serial : Nat} {arm : Arm},
    registry.arms.find? (.drawn .arms serial) = some arm → serial ≤ registry.armsDrawn

/-- Both ways of keeping arms agree. -/
structure Sound (registry : Registry) : Prop where
  /-- An arm is kept under its own identifier. -/
  id_eq : ∀ {id : ObjectId} {arm : Arm}, registry.arms.find? id = some arm → arm.id = id
  /-- An arm is listed for its own contest, and for no other. -/
  mem_idsOf_iff : ∀ (contest : Contest) (id : ObjectId), id ∈ registry.idsOf contest ↔
    ∃ arm, registry.arms.find? id = some arm ∧ arm.contest = contest
  /-- No contest lists an arm twice. -/
  nodup_idsOf : ∀ contest, (registry.idsOf contest).Nodup
  /-- No arm has an identifier that is yet to be drawn. -/
  drawn_le : ∀ {serial : Nat} {arm : Arm},
    registry.arms.find? (.drawn .arms serial) = some arm → serial ≤ registry.armsDrawn

/-- Two registries that list the same arms, as far as `view` can tell. -/
structure SameArms {β : Type} (view : Arm → β) (before after : Registry) : Prop where
  idsOf : ∀ contest, after.idsOf contest = before.idsOf contest
  armsDrawn : after.armsDrawn = before.armsDrawn
  arms : ∀ id, (after.arms.find? id).map view = (before.arms.find? id).map view

/-- What making sure of a contest's arms may change: a known arm changes its role at most, and an
arm that was not known starts without statistics. -/
structure Provisioned (contest : Contest) (before after : Registry) : Prop where
  kept : ∀ {id : ObjectId} {arm : Arm}, before.arms.find? id = some arm →
    ∃ role updatedAt, after.arms.find? id = some { arm with role, updatedAt }
  fresh : ∀ {id : ObjectId} {arm : Arm}, before.arms.find? id = none →
    after.arms.find? id = some arm → arm.contest = contest ∧ arm.stats = .empty

/-! ## Lookups -/

theorem idsOf_update (registry : Registry) (contest other : Contest)
    (change : List ObjectId → List ObjectId) :
    ({ registry with index := registry.index.update contest [] change } : Registry).idsOf other =
      if other = contest then change (registry.idsOf contest) else registry.idsOf other := by
  unfold idsOf
  rw [Table.find?_update]
  by_cases h : other = contest
  · simp [h]
  · simp [h]

theorem mem_armsOf_iff (hsound : registry.Sound) (contest : Contest) (arm : Arm) :
    arm ∈ registry.armsOf contest ↔ registry.Holds contest arm := by
  unfold armsOf Holds
  rw [List.mem_filterMap]
  constructor
  · rintro ⟨id, hlisted, hfound⟩
    obtain ⟨listed, hlookup, hcontest⟩ := (hsound.mem_idsOf_iff contest id).mp hlisted
    obtain rfl : listed = arm := Option.some.inj (hlookup.symm.trans hfound)
    rw [hsound.id_eq hfound]
    exact ⟨hfound, hcontest⟩
  · rintro ⟨hfound, hcontest⟩
    exact ⟨arm.id, (hsound.mem_idsOf_iff contest arm.id).mpr ⟨arm, hfound, hcontest⟩, hfound⟩

/-! ## Grounded registries -/

theorem Sound.grounded (hsound : registry.Sound) : registry.Grounded where
  id_eq := hsound.id_eq
  on_record {contest id} hlisted := by
    obtain ⟨arm, hfound, -⟩ := (hsound.mem_idsOf_iff contest id).mp hlisted
    exact ⟨arm, hfound⟩
  drawn_le := hsound.drawn_le

namespace Grounded

theorem find?_next_eq_none (hgrounded : registry.Grounded) :
    registry.arms.find? (.drawn .arms (registry.armsDrawn + 1)) = none := by
  cases hfound : registry.arms.find? (.drawn .arms (registry.armsDrawn + 1)) with
  | none => rfl
  | some arm => exact absurd (hgrounded.drawn_le hfound) (Nat.not_succ_le_self _)

/-- An arm is put on record under its own identifier, and at most its identifier is listed anew. -/
theorem insert (hgrounded : registry.Grounded) {arm : Arm}
    (harms : after.arms = registry.arms.insert arm.id arm)
    (hlisted : ∀ {contest id}, id ∈ after.idsOf contest →
      id ∈ registry.idsOf contest ∨ id = arm.id)
    (hdrawn : registry.armsDrawn ≤ after.armsDrawn)
    (hid : ∀ serial, arm.id = .drawn .arms serial → serial ≤ after.armsDrawn) :
    after.Grounded := by
  refine ⟨fun {id found} hfound => ?_, fun {contest id} hmem => ?_, fun {serial found} hfound => ?_⟩
  · rw [harms, Table.find?_insert] at hfound
    split at hfound
    · next heq =>
      obtain rfl := Option.some.inj hfound
      exact heq.symm
    · exact hgrounded.id_eq hfound
  · rw [harms, Table.find?_insert]
    split
    · exact ⟨arm, rfl⟩
    · next hother => exact hgrounded.on_record ((hlisted hmem).resolve_right hother)
  · rw [harms, Table.find?_insert] at hfound
    split at hfound
    · next heq => exact hid serial heq.symm
    · exact Nat.le_trans (hgrounded.drawn_le hfound) hdrawn

end Grounded

/-! ## Changes that keep the arms -/

namespace SameArms

variable {β : Type} {view : Arm → β}

theorem refl (view : Arm → β) (registry : Registry) : SameArms view registry registry :=
  ⟨fun _ => rfl, rfl, fun _ => rfl⟩

theorem trans (hfirst : SameArms view before middle) (hsecond : SameArms view middle after) :
    SameArms view before after :=
  ⟨fun contest => (hsecond.idsOf contest).trans (hfirst.idsOf contest),
    hsecond.armsDrawn.trans hfirst.armsDrawn, fun id => (hsecond.arms id).trans (hfirst.arms id)⟩

theorem insert {id : ObjectId} {arm changed : Arm}
    (hfound : registry.arms.find? id = some arm) (hview : view changed = view arm) :
    SameArms view registry { registry with arms := registry.arms.insert id changed } := by
  refine ⟨fun _ => rfl, rfl, fun other => ?_⟩
  rw [Table.find?_insert]
  by_cases h : other = id
  · simp [h, hfound, hview]
  · simp [h]

theorem changeArm (registry : Registry) (id : ObjectId) {change : Arm → Arm}
    (hview : ∀ arm, view (change arm) = view arm) :
    SameArms view registry (registry.changeArm id change) := by
  refine ⟨fun _ => rfl, rfl, fun other => ?_⟩
  simp only [Registry.changeArm, Table.find?_modify]
  by_cases h : other = id
  · simp [h, hview, Function.comp_def]
  · simp [h]

theorem map_armsOf (hsame : SameArms view before after) (contest : Contest) :
    (after.armsOf contest).map view = (before.armsOf contest).map view := by
  simp only [armsOf, List.map_filterMap, hsame.idsOf, hsame.arms]

theorem grounded (hsame : SameArms Arm.identity before after) (hgrounded : before.Grounded) :
    after.Grounded := by
  have hback : ∀ {id arm}, after.arms.find? id = some arm →
      ∃ known, before.arms.find? id = some known ∧ known.id = arm.id := by
    intro id arm hfound
    have harm := hsame.arms id
    rw [hfound, Option.map_some] at harm
    obtain ⟨known, hknown, hidentity⟩ := Option.map_eq_some_iff.mp harm.symm
    exact ⟨known, hknown, congrArg Prod.fst hidentity⟩
  refine ⟨fun {id arm} hfound => ?_, fun {contest id} hlisted => ?_, fun {serial arm} hfound => ?_⟩
  · obtain ⟨known, hknown, hid⟩ := hback hfound
    exact hid.symm.trans (hgrounded.id_eq hknown)
  · rw [hsame.idsOf] at hlisted
    obtain ⟨known, hknown⟩ := hgrounded.on_record hlisted
    have harm := hsame.arms id
    rw [hknown, Option.map_some] at harm
    obtain ⟨arm, hfound, -⟩ := Option.map_eq_some_iff.mp harm
    exact ⟨arm, hfound⟩
  · obtain ⟨known, hknown, -⟩ := hback hfound
    rw [hsame.armsDrawn]
    exact hgrounded.drawn_le hknown

theorem sound (hsame : SameArms Arm.identity before after) (hsound : before.Sound) :
    after.Sound := by
  have hgrounded := hsame.grounded hsound.grounded
  refine ⟨hgrounded.id_eq, ?_, ?_, hgrounded.drawn_le⟩
  · intro contest id
    have hview : (after.arms.find? id).map Arm.contest =
        (before.arms.find? id).map Arm.contest := by
      have hcontests := congrArg (Option.map fun identity => identity.2.1) (hsame.arms id)
      rw [Option.map_map, Option.map_map] at hcontests
      exact hcontests
    rw [hsame.idsOf, hsound.mem_idsOf_iff]
    simp only [← Option.map_eq_some_iff, hview]
  · intro contest
    rw [hsame.idsOf]
    exact hsound.nodup_idsOf contest

end SameArms

/-- Giving an arm a status cannot be seen by what reads neither status nor time of change. -/
theorem SameArms.setStatus {β : Type} {view : Arm → β}
    (hview : ∀ (arm : Arm) (status : ArmStatus) (updatedAt : Instant),
      view { arm with status, updatedAt } = view arm)
    (id : ObjectId) (status : ArmStatus) (now : Instant) (registry : Registry) :
    SameArms view registry (registry.setStatus id status now).1 := by
  unfold Registry.setStatus
  cases hfound : registry.arms.find? id with
  | none => exact .refl _ registry
  | some arm => exact .insert hfound (hview arm status now)

theorem SameArms.setPresetStatus {β : Type} {view : Arm → β}
    (hview : ∀ (arm : Arm) (status : ArmStatus) (updatedAt : Instant),
      view { arm with status, updatedAt } = view arm)
    (preset : ObjectId) (status : ArmStatus) (now : Instant) (registry : Registry) :
    SameArms view registry (registry.setPresetStatus preset status now).1 := by
  dsimp only [Registry.setPresetStatus]
  split
  · exact .refl _ registry
  · refine ⟨fun _ => rfl, rfl, fun id => ?_⟩
    rw [Table.find?_mapValues, Option.map_map]
    congr 1
    funext arm
    simp only [Function.comp_apply]
    split
    · exact hview arm status now
    · rfl

theorem exists_setStatus (id : ObjectId) (status : ArmStatus) (now : Instant)
    (registry : Registry) :
    ∃ arms, (registry.setStatus id status now).1 = { registry with arms } := by
  dsimp only [Registry.setStatus]
  split
  · exact ⟨registry.arms, rfl⟩
  · exact ⟨_, rfl⟩

theorem exists_setPresetStatus (preset : ObjectId) (status : ArmStatus) (now : Instant)
    (registry : Registry) :
    ∃ arms, (registry.setPresetStatus preset status now).1 = { registry with arms } := by
  dsimp only [Registry.setPresetStatus]
  split
  · exact ⟨registry.arms, rfl⟩
  · exact ⟨_, rfl⟩

theorem SameArms.coarsen {β γ : Type} {view : Arm → β} (hsame : SameArms view before after)
    (forget : β → γ) : SameArms (fun arm => forget (view arm)) before after := by
  refine ⟨hsame.idsOf, hsame.armsDrawn, fun id => ?_⟩
  have harms := congrArg (Option.map forget) (hsame.arms id)
  simpa only [Option.map_map, Function.comp_def] using harms

/-! ## Resetting statistics -/

/-- Changing the arms of a list, one after the other, changes each of them once. -/
theorem find?_foldl_changeArm (change : Arm → Arm)
    (hagain : ∀ arm, change (change arm) = change arm) (ids : List ObjectId)
    (registry : Registry) (id : ObjectId) :
    (ids.foldl (fun registry id => registry.changeArm id change) registry).arms.find? id =
      if id ∈ ids then (registry.arms.find? id).map change else registry.arms.find? id := by
  induction ids generalizing registry with
  | nil => rfl
  | cons first rest ih =>
    rw [List.foldl_cons, ih]
    simp only [changeArm, Table.find?_modify, List.mem_cons]
    by_cases hfirst : id = first
    · subst hfirst
      by_cases hrest : id ∈ rest
      · simp [hrest, Function.comp_def, hagain]
      · simp [hrest]
    · simp [hfirst]

theorem exists_foldl_changeArm (change : Arm → Arm) (ids : List ObjectId) (registry : Registry) :
    ∃ arms, ids.foldl (fun registry id => registry.changeArm id change) registry =
      { registry with arms } := by
  induction ids generalizing registry with
  | nil => exact ⟨registry.arms, rfl⟩
  | cons first rest ih => exact ih (registry.changeArm first change)

theorem exists_resetStats (contest : Contest) (now : Instant) (registry : Registry) :
    ∃ arms, (registry.resetStats contest now).1 = { registry with arms } :=
  exists_foldl_changeArm (Arm.cleared now) (registry.idsOf contest) registry

/-- A reset clears the arms that its contest lists, and no others. -/
theorem find?_resetStats (contest : Contest) (now : Instant) (registry : Registry)
    (id : ObjectId) :
    (registry.resetStats contest now).1.arms.find? id =
      if id ∈ registry.idsOf contest then (registry.arms.find? id).map (Arm.cleared now)
      else registry.arms.find? id :=
  find?_foldl_changeArm (Arm.cleared now) (fun _ => rfl) (registry.idsOf contest) registry id

theorem sameArms_foldl_changeArm {β : Type} {view : Arm → β} (change : Arm → Arm)
    (hview : ∀ arm, view (change arm) = view arm) (ids : List ObjectId) (registry : Registry) :
    SameArms view registry
      (ids.foldl (fun registry id => registry.changeArm id change) registry) := by
  induction ids generalizing registry with
  | nil => exact .refl view registry
  | cons first rest ih => exact (SameArms.changeArm registry first hview).trans (ih _)

theorem sameArms_resetStats (contest : Contest) (now : Instant) (registry : Registry) :
    SameArms Arm.identity registry (registry.resetStats contest now).1 :=
  sameArms_foldl_changeArm (Arm.cleared now) (fun _ => rfl) (registry.idsOf contest) registry

/-! ## Putting arms on record -/

/-- Whether an arm may be put on record as it is given: one that is known stays in its contest, and
its identifier is not one that the registry has yet to draw, since nobody can hold that. -/
structure Admits (registry : Registry) (arm : Arm) : Prop where
  same_contest : ∀ {known : Arm}, registry.arms.find? arm.id = some known →
    known.contest = arm.contest
  drawn_le : ∀ {serial : Nat}, arm.id = .drawn .arms serial → serial ≤ registry.armsDrawn

/-- The lists of arms after one was put on record. -/
theorem idsOf_restoreArm (arm : Arm) (registry : Registry) (contest : Contest) :
    (registry.restoreArm arm).idsOf contest =
      if contest = arm.contest then
        if (registry.idsOf arm.contest).contains arm.id then registry.idsOf arm.contest
        else registry.idsOf arm.contest ++ [arm.id]
      else registry.idsOf contest :=
  idsOf_update registry arm.contest contest _

/-- An arm that is put on record keeps a registry grounded, in whatever contest it was before. -/
theorem Grounded.restoreArm (hgrounded : registry.Grounded) {arm : Arm}
    (hid : ∀ serial, arm.id = .drawn .arms serial → serial ≤ registry.armsDrawn) :
    (registry.restoreArm arm).Grounded := by
  have hlisted : ∀ {contest id}, id ∈ (registry.restoreArm arm).idsOf contest →
      id ∈ registry.idsOf contest ∨ id = arm.id := by
    intro contest id hmem
    rw [idsOf_restoreArm] at hmem
    split at hmem
    · next hcontest =>
      rw [hcontest]
      split at hmem
      · exact .inl hmem
      · simpa using hmem
    · exact .inl hmem
  exact hgrounded.insert rfl hlisted (Nat.le_refl _) hid

theorem sound_restoreArm (hsound : registry.Sound) {arm : Arm} (hadmits : registry.Admits arm) :
    (registry.restoreArm arm).Sound := by
  have hids := idsOf_restoreArm arm registry
  have hgrounded := hsound.grounded.restoreArm fun _ => hadmits.drawn_le
  refine ⟨hgrounded.id_eq, ?_, ?_, hgrounded.drawn_le⟩
  · intro other id
    rw [hids]
    simp only [restoreArm, Table.find?_insert]
    by_cases hid : id = arm.id
    · subst hid
      by_cases hother : other = arm.contest
      · subst hother
        by_cases hlisted : arm.id ∈ registry.idsOf arm.contest
        · simp [hlisted]
        · simp [hlisted]
      · -- an arm that another contest lists would have changed its contest
        have hunlisted : arm.id ∉ registry.idsOf other := by
          intro hlisted
          obtain ⟨known, hknown, hcontest⟩ := (hsound.mem_idsOf_iff other arm.id).mp hlisted
          exact hother (hcontest.symm.trans (hadmits.same_contest hknown))
        simp [hother, Ne.symm hother, hunlisted]
    · by_cases hother : other = arm.contest
      · subst hother
        by_cases hlisted : arm.id ∈ registry.idsOf arm.contest
        · simp [hlisted, hid, hsound.mem_idsOf_iff]
        · simp [hlisted, hid, hsound.mem_idsOf_iff]
      · simp [hother, hid, hsound.mem_idsOf_iff]
  · intro other
    rw [hids]
    split
    · split
      · exact hsound.nodup_idsOf arm.contest
      · next hlisted =>
        simp only [List.contains_iff_mem] at hlisted
        rw [← List.concat_eq_append, List.nodup_concat]
        exact ⟨hlisted, hsound.nodup_idsOf arm.contest⟩
    · exact hsound.nodup_idsOf other

/-! ## Providing arms for offers -/

theorem Provisioned.refl (contest : Contest) (registry : Registry) :
    Provisioned contest registry registry := by
  refine ⟨fun {_ arm} hfound => ⟨arm.role, arm.updatedAt, hfound⟩, ?_⟩
  intro id arm hmissing hfound
  rw [hmissing] at hfound
  cases hfound

theorem Provisioned.trans {contest : Contest} (hfirst : Provisioned contest before middle)
    (hsecond : Provisioned contest middle after) : Provisioned contest before after := by
  refine ⟨?_, ?_⟩
  · intro id arm hfound
    obtain ⟨role, updatedAt, hmiddle⟩ := hfirst.kept hfound
    obtain ⟨role, updatedAt, hafter⟩ := hsecond.kept hmiddle
    exact ⟨role, updatedAt, hafter⟩
  · intro id arm hnew hafter
    cases hmiddle : middle.arms.find? id with
    | none => exact hsecond.fresh hmiddle hafter
    | some made =>
      obtain ⟨role, updatedAt, hkept⟩ := hsecond.kept hmiddle
      obtain rfl := Option.some.inj (hkept.symm.trans hafter)
      have hmade := hfirst.fresh hnew hmiddle
      exact ⟨hmade.1, hmade.2⟩

/-- The lists of arms after one was created. -/
theorem idsOf_createArm (contest : Contest) (now : Instant) (offer : Offer) (registry : Registry)
    (other : Contest) :
    (registry.createArm contest now offer).idsOf other =
      if other = contest then registry.idsOf contest ++ [.drawn .arms (registry.armsDrawn + 1)]
      else registry.idsOf other :=
  idsOf_update registry contest other _

theorem Grounded.createArm (hgrounded : registry.Grounded) (contest : Contest) (now : Instant)
    (offer : Offer) : (registry.createArm contest now offer).Grounded := by
  let arm := Arm.create (.drawn .arms (registry.armsDrawn + 1)) contest offer now
  have harms : (registry.createArm contest now offer).arms =
      registry.arms.insert arm.id arm := rfl
  apply hgrounded.insert harms
  · intro other id hlisted
    rw [idsOf_createArm] at hlisted
    split at hlisted
    · next hcontest =>
      rw [hcontest]
      exact (List.mem_append.mp hlisted).imp_right List.mem_singleton.mp
    · exact .inl hlisted
  · exact Nat.le_succ _
  · intro serial hserial
    obtain ⟨-, rfl⟩ := Identifier.drawn.inj hserial
    exact Nat.le_refl _

theorem createArm_eq_restoreArm (hsound : registry.Sound) (contest : Contest) (now : Instant)
    (offer : Offer) :
    registry.createArm contest now offer =
      { registry with armsDrawn := registry.armsDrawn + 1 }.restoreArm
        (.create (.drawn .arms (registry.armsDrawn + 1)) contest offer now) := by
  -- a drawn identifier is listed nowhere, so that both put it at the end of the list
  have hunlisted : Identifier.drawn .arms (registry.armsDrawn + 1) ∉ registry.idsOf contest := by
    intro hlisted
    obtain ⟨arm, hfound, -⟩ := (hsound.mem_idsOf_iff contest _).mp hlisted
    cases hsound.grounded.find?_next_eq_none.symm.trans hfound
  have hids : (registry.index.find? contest).getD [] = registry.idsOf contest := rfl
  simp only [createArm, restoreArm, Table.update, Arm.create, hids, List.contains_eq_mem,
    hunlisted, decide_false, Bool.false_eq_true, if_false]

theorem sound_createArm (hsound : registry.Sound) (contest : Contest) (now : Instant)
    (offer : Offer) : (registry.createArm contest now offer).Sound := by
  have hdrawn : Registry.Sound { registry with armsDrawn := registry.armsDrawn + 1 } :=
    ⟨hsound.id_eq, hsound.mem_idsOf_iff, hsound.nodup_idsOf,
      fun hfound => Nat.le_succ_of_le (hsound.drawn_le hfound)⟩
  rw [createArm_eq_restoreArm hsound]
  refine sound_restoreArm hdrawn ⟨fun {known} hknown => ?_, fun {serial} hserial => ?_⟩
  · cases hsound.grounded.find?_next_eq_none.symm.trans hknown
  · obtain ⟨-, rfl⟩ := Identifier.drawn.inj hserial
    exact Nat.le_refl _

theorem provisioned_createArm (hsound : registry.Sound) (contest : Contest) (now : Instant)
    (offer : Offer) : Provisioned contest registry (registry.createArm contest now offer) := by
  have hnew := hsound.grounded.find?_next_eq_none
  refine ⟨?_, ?_⟩
  · intro id arm hfound
    have hid : id ≠ .drawn .arms (registry.armsDrawn + 1) := by
      rintro rfl
      rw [hnew] at hfound
      cases hfound
    exact ⟨arm.role, arm.updatedAt, (Table.find?_insert_of_ne hid).trans hfound⟩
  · intro id arm hmissing hfound
    simp only [createArm, Table.find?_insert] at hfound
    split at hfound
    · obtain rfl := Option.some.inj hfound
      exact ⟨rfl, rfl⟩
    · rw [hmissing] at hfound
      cases hfound

theorem provisioned_changeRole (contest : Contest) (id : ObjectId) (role : ArmRole)
    (now : Instant) (registry : Registry) :
    Provisioned contest registry
      (registry.changeArm id fun arm => { arm with role, updatedAt := now }) := by
  refine ⟨?_, ?_⟩
  · intro other arm hfound
    simp only [changeArm, Table.find?_modify]
    by_cases h : other = id
    · subst h
      exact ⟨role, now, by simp [hfound]⟩
    · exact ⟨arm.role, arm.updatedAt, by simp [h, hfound]⟩
  · intro other arm hmissing hfound
    simp only [changeArm, Table.find?_modify] at hfound
    split at hfound
    · next h =>
      subst h
      simp [hmissing] at hfound
    · rw [hmissing] at hfound
      cases hfound

theorem settleOffer_spec (hsound : registry.Sound) (contest : Contest) (now : Instant)
    (offer : Offer) :
    (registry.settleOffer contest now offer).Sound ∧
      Provisioned contest registry (registry.settleOffer contest now offer) := by
  unfold settleOffer
  split
  · exact ⟨sound_createArm hsound contest now offer,
      provisioned_createArm hsound contest now offer⟩
  · split
    · exact ⟨hsound, .refl contest registry⟩
    · refine ⟨SameArms.sound (.changeArm registry _ ?_) hsound,
        provisioned_changeRole contest _ _ now registry⟩
      exact fun _ => rfl

theorem settleOffers_spec (hsound : registry.Sound) (contest : Contest) (now : Instant)
    (offers : List Offer) :
    (offers.foldl (settleOffer contest now) registry).Sound ∧
      Provisioned contest registry (offers.foldl (settleOffer contest now) registry) := by
  induction offers generalizing registry with
  | nil => exact ⟨hsound, .refl contest registry⟩
  | cons offer rest ih =>
    obtain ⟨hfirst, hprovided⟩ := settleOffer_spec hsound contest now offer
    obtain ⟨hrest, hmore⟩ := ih hfirst
    exact ⟨hrest, hprovided.trans hmore⟩

theorem sameArms_open {β : Type} (view : Arm → β) (contest : Contest) (registry : Registry) :
    SameArms view registry
      { registry with index := registry.index.update contest [] fun ids => ids } := by
  refine ⟨fun other => ?_, rfl, fun _ => rfl⟩
  rw [idsOf_update]
  split
  · next h => rw [h]
  · rfl

theorem ensureArms_spec (hsound : registry.Sound) (contest : Contest) (offers : List Offer)
    (now : Instant) :
    (registry.ensureArms contest offers now).1.Sound ∧
      Provisioned contest registry (registry.ensureArms contest offers now).1 := by
  let opened : Registry :=
    { registry with index := registry.index.update contest [] fun ids => ids }
  have hsame : SameArms Arm.identity registry opened := sameArms_open _ contest registry
  have hrefl := Provisioned.refl contest registry
  have hopened : Provisioned contest registry opened :=
    ⟨hrefl.kept, hrefl.fresh⟩
  obtain ⟨hsettled, hprovided⟩ := settleOffers_spec (hsame.sound hsound) contest now offers
  exact ⟨hsettled, hopened.trans hprovided⟩

/-! ## The empty registry -/

theorem sound_empty : Registry.empty.Sound := by
  refine ⟨?_, fun contest id => ?_, fun _ => List.nodup_nil, ?_⟩
  · intro id arm hfound
    cases hfound
  · simp [empty, idsOf]
  · intro serial arm hfound
    cases hfound

end Registry

end ExposureControl
