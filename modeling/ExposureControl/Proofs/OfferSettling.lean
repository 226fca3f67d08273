import ExposureControl.Proofs.ArmOrigin

/-!
# Settling offers

What making sure of a contest's arms does, offer by offer.  An arm of the contest takes the role of
the last offer of its preset, an offer that no arm of the contest meets gets an arm of its own, at
the end of the list, and nothing else changes.  Offers that are met already change nothing at all.
-/

namespace ExposureControl

def lastRole? (offers : List Offer) (preset : ObjectId) : Option ArmRole :=
  (offers.reverse.find? fun offer => offer.preset = preset).map Offer.role

/-- Whether no preset is offered in one role here and in another there. -/
def OffersAgree (first second : List Offer) : Prop :=
  ∀ offer ∈ first, ∀ other ∈ second, offer.preset = other.preset → offer.role = other.role

theorem lastRole?_append (first second : List Offer) (preset : ObjectId) :
    lastRole? (first ++ second) preset =
      (lastRole? second preset).or (lastRole? first preset) := by
  rw [lastRole?, List.reverse_append, List.find?_append, Option.map_or, lastRole?, lastRole?]

theorem lastRole?_singleton (offer : Offer) (preset : ObjectId) :
    lastRole? [offer] preset = if offer.preset = preset then some offer.role else none := by
  by_cases hpreset : offer.preset = preset <;> simp [lastRole?, hpreset]

theorem lastRole?_eq_none_iff (offers : List Offer) (preset : ObjectId) :
    lastRole? offers preset = none ↔ ∀ offer ∈ offers, offer.preset ≠ preset := by
  simp [lastRole?]

theorem exists_offer_of_lastRole? {offers : List Offer} {preset : ObjectId} {role : ArmRole}
    (hrole : lastRole? offers preset = some role) :
    ∃ offer ∈ offers, offer.preset = preset ∧ offer.role = role := by
  obtain ⟨last, hfound, rfl⟩ := Option.map_eq_some_iff.mp hrole
  exact ⟨last, List.mem_reverse.mp (List.mem_of_find?_eq_some hfound),
    by simpa using List.find?_some hfound, rfl⟩

/-- Where no preset is offered with two roles, the last role of an offered preset is the offered
one. -/
theorem lastRole?_of_mem {offers : List Offer} (hagree : OffersAgree offers offers)
    {offer : Offer} (hoffer : offer ∈ offers) :
    lastRole? offers offer.preset = some offer.role := by
  cases hlast : lastRole? offers offer.preset with
  | none => exact absurd rfl ((lastRole?_eq_none_iff offers offer.preset).mp hlast offer hoffer)
  | some role =>
    obtain ⟨last, hmem, hpreset, rfl⟩ := exists_offer_of_lastRole? hlast
    exact congrArg some (hagree last hmem offer hoffer hpreset)

namespace Registry

variable {before middle after registry : Registry} {contest : Contest}
  {offers first second : List Offer}

/-- Whether no contest has two arms of one preset. -/
def Distinct (registry : Registry) : Prop :=
  ∀ {contest : Contest} {first second : Arm}, registry.Holds contest first →
    registry.Holds contest second → first.preset = second.preset → first = second

/-- What settling offers of a contest does. -/
structure Settled (contest : Contest) (offers : List Offer) (before after : Registry) :
    Prop where
  /-- An arm on record may change its role, and then its time of change, but only if its contest
  is the one, and its preset is offered. -/
  kept : ∀ {id : ObjectId} {arm : Arm}, before.arms.find? id = some arm →
    ∃ role updatedAt, after.arms.find? id = some { arm with role, updatedAt } ∧
      (arm.contest ≠ contest ∨ lastRole? offers arm.preset = none →
        role = arm.role ∧ updatedAt = arm.updatedAt)
  /-- New arms are listed after those that were there. -/
  listed : ∃ fresh, after.idsOf contest = before.idsOf contest ++ fresh ∧
    ∀ id ∈ fresh, before.arms.find? id = none
  others : ∀ {other : Contest}, other ≠ contest → after.idsOf other = before.idsOf other
  met : ∀ {preset : ObjectId} {role : ArmRole}, lastRole? offers preset = some role →
    ∃ arm, after.Holds contest arm ∧ arm.preset = preset ∧ arm.role = role
  distinct : before.Distinct → after.Distinct

/-! ## Looking up an arm for an offer -/

theorem armOffering?_eq_some (hsound : registry.Sound) {preset : ObjectId} {arm : Arm}
    (hfound : registry.armOffering? contest preset = some arm) :
    registry.Holds contest arm ∧ arm.preset = preset := by
  refine ⟨(mem_armsOf_iff hsound contest arm).mp (List.mem_of_find?_eq_some hfound), ?_⟩
  simpa using List.find?_some hfound

theorem preset_ne_of_armOffering?_eq_none (hsound : registry.Sound) {preset : ObjectId}
    (hnone : registry.armOffering? contest preset = none) {arm : Arm}
    (hheld : registry.Holds contest arm) : arm.preset ≠ preset :=
  (armOffering?_eq_none_iff registry contest preset).mp hnone arm.id
    ((hsound.mem_idsOf_iff contest arm.id).mpr ⟨arm, hheld⟩) arm hheld.1

/-! ## One offer after the other -/

namespace Settled

theorem nil (harms : after.arms = before.arms)
    (hids : ∀ contest, after.idsOf contest = before.idsOf contest) :
    Settled contest [] before after where
  kept {id arm} hknown := ⟨arm.role, arm.updatedAt, by rw [harms, hknown], fun _ => ⟨rfl, rfl⟩⟩
  listed := ⟨[], by rw [hids, List.append_nil], nofun⟩
  others _ := hids _
  met hrole := by cases hrole
  distinct hdistinct {contest first second} hfirst hsecond := by
    rw [Holds, harms] at hfirst hsecond
    exact hdistinct hfirst hsecond

theorem append (hfirst : Settled contest first before middle)
    (hsecond : Settled contest second middle after) :
    Settled contest (first ++ second) before after where
  kept {id arm} hknown := by
    obtain ⟨role, updatedAt, hmiddle, hsame⟩ := hfirst.kept hknown
    obtain ⟨role', updatedAt', hafter, hsame'⟩ := hsecond.kept hmiddle
    refine ⟨role', updatedAt', hafter, fun hspared => ?_⟩
    rw [lastRole?_append, Option.or_eq_none_iff] at hspared
    obtain ⟨hrole, hupdated⟩ := hsame (hspared.imp_right And.right)
    obtain ⟨hrole', hupdated'⟩ := hsame' (hspared.imp_right And.left)
    exact ⟨hrole'.trans hrole, hupdated'.trans hupdated⟩
  listed := by
    obtain ⟨made, hmade, hnew⟩ := hfirst.listed
    obtain ⟨more, hmore, hnew'⟩ := hsecond.listed
    refine ⟨made ++ more, by rw [hmore, hmade, List.append_assoc], fun id hid => ?_⟩
    cases List.mem_append.mp hid with
    | inl hid => exact hnew id hid
    | inr hid =>
      cases hknown : before.arms.find? id with
      | none => rfl
      | some arm =>
        obtain ⟨_, _, hmiddle, -⟩ := hfirst.kept hknown
        cases (hnew' id hid).symm.trans hmiddle
  others hother := (hsecond.others hother).trans (hfirst.others hother)
  met {preset role} hrole := by
    rw [lastRole?_append] at hrole
    cases hlater : lastRole? second preset with
    | some later =>
      rw [hlater] at hrole
      cases hrole
      exact hsecond.met hlater
    | none =>
      -- the later offers leave the arm as the earlier ones settled it
      rw [hlater] at hrole
      obtain ⟨arm, ⟨hmiddle, hcontest⟩, rfl, hsettled⟩ := hfirst.met hrole
      obtain ⟨role', updatedAt, hafter, hsame⟩ := hsecond.kept hmiddle
      obtain ⟨rfl, rfl⟩ := hsame (.inr hlater)
      exact ⟨arm, ⟨hafter, hcontest⟩, rfl, hsettled⟩
  distinct hdistinct := hsecond.distinct (hfirst.distinct hdistinct)

theorem createArm (hsound : registry.Sound) (now : Instant) {offer : Offer}
    (hnone : registry.armOffering? contest offer.preset = none) :
    Settled contest [offer] registry (registry.createArm contest now offer) := by
  have hnew := hsound.grounded.find?_next_eq_none
  have hmissing : ∀ {arm}, registry.Holds contest arm → arm.preset ≠ offer.preset :=
    preset_ne_of_armOffering?_eq_none hsound hnone
  let made : Arm := .create (.drawn .arms (registry.armsDrawn + 1)) contest offer now
  have hfind : ∀ id, (registry.createArm contest now offer).arms.find? id =
      if id = made.id then some made else registry.arms.find? id :=
    fun id => Table.find?_insert _ _ _ _
  have hmade : (registry.createArm contest now offer).Holds contest made :=
    ⟨(hfind made.id).trans (if_pos rfl), rfl⟩
  -- whatever the new registry holds besides, the old one held
  have hheld : ∀ {other arm}, (registry.createArm contest now offer).Holds other arm →
      arm = made ∨ registry.Holds other arm := by
    rintro other arm ⟨hfound, hcontest⟩
    rw [hfind] at hfound
    split at hfound
    · exact .inl (Option.some.inj hfound).symm
    · exact .inr ⟨hfound, hcontest⟩
  refine ⟨fun {id arm} hknown => ?_, ⟨[made.id], ?_, ?_⟩, fun hother => ?_, fun hrole => ?_,
    fun hdistinct => ?_⟩
  · have hid : id ≠ made.id := by
      rintro rfl
      cases hnew.symm.trans hknown
    refine ⟨arm.role, arm.updatedAt, ?_, fun _ => ⟨rfl, rfl⟩⟩
    rw [hfind, if_neg hid, hknown]
  · rw [idsOf_createArm, if_pos rfl]
    rfl
  · exact List.forall_mem_singleton.mpr hnew
  · rw [idsOf_createArm, if_neg hother]
  · rw [lastRole?_singleton] at hrole
    split at hrole
    · next hpreset =>
      cases hrole
      exact ⟨made, hmade, hpreset, rfl⟩
    · cases hrole
  · intro other first second hfirst hsecond hpreset
    obtain rfl | hfirstHeld := hheld hfirst
    · obtain rfl | hsecondHeld := hheld hsecond
      · rfl
      · obtain rfl : contest = other := hfirst.2
        exact absurd hpreset.symm (hmissing hsecondHeld)
    · obtain rfl | hsecondHeld := hheld hsecond
      · obtain rfl : contest = other := hsecond.2
        exact absurd hpreset (hmissing hfirstHeld)
      · exact hdistinct hfirstHeld hsecondHeld hpreset

theorem changeRole (now : Instant) {offer : Offer} {arm : Arm}
    (hheld : registry.Holds contest arm) (hpreset : arm.preset = offer.preset) :
    Settled contest [offer] registry (registry.changeArm arm.id fun arm =>
      { arm with role := offer.role, updatedAt := now }) := by
  let change (arm : Arm) : Arm := { arm with role := offer.role, updatedAt := now }
  have hfind : ∀ id, (registry.changeArm arm.id change).arms.find? id =
      if id = arm.id then some (change arm) else registry.arms.find? id := by
    intro id
    rw [changeArm, Table.find?_modify, hheld.1, Option.map_some]
  have hback : ∀ {other changed}, (registry.changeArm arm.id change).Holds other changed →
      ∃ known, registry.Holds other known ∧ known.id = changed.id ∧
        known.preset = changed.preset := by
    rintro other changed ⟨hfound, hcontest⟩
    rw [hfind] at hfound
    split at hfound
    · next hid =>
      cases hfound
      exact ⟨arm, ⟨hheld.1, hcontest⟩, rfl, rfl⟩
    · exact ⟨changed, ⟨hfound, hcontest⟩, rfl, rfl⟩
  refine ⟨fun {id known} hknown => ?_, ⟨[], (List.append_nil _).symm, List.forall_mem_nil _⟩,
    fun _ => rfl, fun hrole => ?_, fun hdistinct => ?_⟩
  · rw [hfind]
    split
    · next hid =>
      obtain rfl := Option.some.inj (hheld.1.symm.trans (hid ▸ hknown))
      refine ⟨offer.role, now, rfl, fun hspared => ?_⟩
      rw [lastRole?_singleton, if_pos hpreset.symm] at hspared
      cases hspared with
      | inl hcontest => exact absurd hheld.2 hcontest
      | inr hnone => cases hnone
    · exact ⟨known.role, known.updatedAt, hknown, fun _ => ⟨rfl, rfl⟩⟩
  · rw [lastRole?_singleton] at hrole
    split at hrole
    · next hoffered =>
      cases hrole
      exact ⟨change arm, ⟨(hfind arm.id).trans (if_pos rfl), hheld.2⟩, hpreset.trans hoffered, rfl⟩
    · cases hrole
  · intro other first second hfirst hsecond hsame
    obtain ⟨known, hknown, hid, hfirstPreset⟩ := hback hfirst
    obtain ⟨known', hknown', hid', hsecondPreset⟩ := hback hsecond
    have hone := hdistinct hknown hknown' (hfirstPreset.trans (hsame.trans hsecondPreset.symm))
    have hids : first.id = second.id := by rw [← hid, hone, hid']
    exact Option.some.inj (hfirst.1.symm.trans (hids ▸ hsecond.1))

theorem same {offer : Offer} {arm : Arm} (hheld : registry.Holds contest arm)
    (hpreset : arm.preset = offer.preset) (hrole : arm.role = offer.role) :
    Settled contest [offer] registry registry where
  kept {id known} hknown := ⟨known.role, known.updatedAt, hknown, fun _ => ⟨rfl, rfl⟩⟩
  listed := ⟨[], (List.append_nil _).symm, nofun⟩
  others _ := rfl
  met {preset role} hlast := by
    rw [lastRole?_singleton] at hlast
    split at hlast
    · next hoffered =>
      cases hlast
      exact ⟨arm, hheld, hpreset.trans hoffered, hrole⟩
    · cases hlast
  distinct hdistinct := hdistinct

end Settled

theorem settleOffer_settled (hsound : registry.Sound) (contest : Contest) (now : Instant)
    (offer : Offer) :
    Settled contest [offer] registry (registry.settleOffer contest now offer) := by
  unfold settleOffer
  split
  · next hnone => exact .createArm hsound now hnone
  · next arm hfound =>
    obtain ⟨hheld, hpreset⟩ := armOffering?_eq_some hsound hfound
    split
    · next hrole => exact .same hheld hpreset hrole
    · exact .changeRole now hheld hpreset

theorem settleOffers_settled (hsound : registry.Sound) (contest : Contest) (now : Instant)
    (offers : List Offer) :
    Settled contest offers registry (offers.foldl (settleOffer contest now) registry) := by
  induction offers generalizing registry with
  | nil => exact .nil rfl fun _ => rfl
  | cons offer rest ih =>
    have hfirst := settleOffer_settled hsound contest now offer
    have hrest := ih (settleOffer_spec hsound contest now offer).1
    exact hfirst.append hrest

theorem ensureArms_settled (hsound : registry.Sound) (contest : Contest) (offers : List Offer)
    (now : Instant) :
    Settled contest offers registry (registry.ensureArms contest offers now).1 := by
  have hopened := sameArms_open Arm.identity contest registry
  have hfirst : Settled contest [] registry
      { registry with index := registry.index.update contest [] fun ids => ids } :=
    .nil rfl hopened.idsOf
  exact hfirst.append (settleOffers_settled (hopened.sound hsound) contest now offers)

/-! ## Offers that are met -/

/-- Whether a contest is listed, and has an arm in the offered role for each offer. -/
structure Meets (registry : Registry) (contest : Contest) (offers : List Offer) : Prop where
  opened : registry.index.find? contest ≠ none
  offering : ∀ offer ∈ offers,
    (registry.armOffering? contest offer.preset).map Arm.role = some offer.role

/-- Offers that are met leave the registry exactly as it is, whatever the time. -/
theorem ensureArms_of_meets (hmeets : registry.Meets contest offers) (now : Instant) :
    registry.ensureArms contest offers now = (registry, registry.armsOf contest) := by
  have hopened : { registry with index := registry.index.update contest [] fun ids => ids } =
      registry := by
    obtain ⟨ids, hids⟩ := Option.ne_none_iff_exists'.mp hmeets.opened
    rw [Table.update, hids, Option.getD_some, Table.insert_of_find?_eq_some hids]
  have hsettled : offers.foldl (settleOffer contest now) registry = registry := by
    have hoffering := hmeets.offering
    induction offers with
    | nil => rfl
    | cons offer rest ih =>
      obtain ⟨hfirst, hrest⟩ := List.forall_mem_cons.mp hoffering
      obtain ⟨arm, hfound, hrole⟩ := Option.map_eq_some_iff.mp hfirst
      rw [List.foldl_cons, settleOffer, hfound]
      dsimp only
      rw [if_pos hrole]
      exact ih ⟨hmeets.opened, hrest⟩ hrest
  simp only [ensureArms, hopened, hsettled]

theorem find?_index_update {other : Contest} (change : List ObjectId → List ObjectId)
    (hopened : registry.index.find? other ≠ none) :
    (registry.index.update contest [] change).find? other ≠ none := by
  rw [Table.find?_update]
  split
  · exact Option.some_ne_none _
  · exact hopened

/-- Settling offers leaves every list open. -/
theorem find?_index_settleOffers {other : Contest} (now : Instant) (offers : List Offer)
    (hopened : registry.index.find? other ≠ none) :
    (offers.foldl (settleOffer contest now) registry).index.find? other ≠ none := by
  induction offers generalizing registry with
  | nil => exact hopened
  | cons offer rest ih =>
    apply ih
    unfold settleOffer
    split
    · exact find?_index_update _ hopened
    · split <;> exact hopened

theorem find?_index_ensureArms (contest : Contest) (offers : List Offer) (now : Instant)
    (registry : Registry) :
    (registry.ensureArms contest offers now).1.index.find? contest ≠ none := by
  apply find?_index_settleOffers
  simp [Table.find?_update]

theorem meets_iff (hsound : registry.Sound) (hdistinct : registry.Distinct) :
    registry.Meets contest offers ↔ registry.index.find? contest ≠ none ∧
      ∀ offer ∈ offers, ∃ arm, registry.Holds contest arm ∧ arm.preset = offer.preset ∧
        arm.role = offer.role := by
  constructor
  · rintro ⟨hopened, hoffering⟩
    refine ⟨hopened, fun offer hoffer => ?_⟩
    obtain ⟨arm, hfound, hrole⟩ := Option.map_eq_some_iff.mp (hoffering offer hoffer)
    obtain ⟨hheld, hpreset⟩ := armOffering?_eq_some hsound hfound
    exact ⟨arm, hheld, hpreset, hrole⟩
  · rintro ⟨hopened, hoffered⟩
    refine ⟨hopened, fun offer hoffer => ?_⟩
    obtain ⟨arm, hheld, hpreset, hrole⟩ := hoffered offer hoffer
    cases hfound : registry.armOffering? contest offer.preset with
    | none => exact absurd hpreset (preset_ne_of_armOffering?_eq_none hsound hfound hheld)
    | some found =>
      obtain ⟨hfoundHeld, hfoundPreset⟩ := armOffering?_eq_some hsound hfound
      obtain rfl := hdistinct hfoundHeld hheld (hfoundPreset.trans hpreset.symm)
      exact congrArg some hrole

theorem meets_ensureArms (hsound : registry.Sound) (hdistinct : registry.Distinct)
    (hagree : OffersAgree offers offers) (contest : Contest) (now : Instant) :
    (registry.ensureArms contest offers now).1.Meets contest offers := by
  have hsettled := ensureArms_settled hsound contest offers now
  have hafter := (ensureArms_spec hsound contest offers now).1
  rw [meets_iff hafter (hsettled.distinct hdistinct)]
  refine ⟨find?_index_ensureArms contest offers now registry, fun offer hoffer => ?_⟩
  exact hsettled.met (lastRole?_of_mem hagree hoffer)

/-- Offers that are met stay so where others are settled that agree with them. -/
theorem Settled.meets {other : Contest} {others : List Offer}
    (hsettled : Settled other others before after) (hsound : before.Sound)
    (hdistinct : before.Distinct) (hafter : after.Sound)
    (hopened : after.index.find? contest ≠ none)
    (hagree : other = contest → OffersAgree others offers)
    (hmeets : before.Meets contest offers) : after.Meets contest offers := by
  rw [meets_iff hafter (hsettled.distinct hdistinct)]
  refine ⟨hopened, fun offer hoffer => ?_⟩
  obtain ⟨arm, ⟨hknown, hcontest⟩, hpreset, hrole⟩ :=
    ((meets_iff hsound hdistinct).mp hmeets).2 offer hoffer
  by_cases hspared : arm.contest ≠ other ∨ lastRole? others arm.preset = none
  · obtain ⟨role, updatedAt, hfound, hsame⟩ := hsettled.kept hknown
    obtain ⟨rfl, rfl⟩ := hsame hspared
    exact ⟨arm, ⟨hfound, hcontest⟩, hpreset, hrole⟩
  · obtain ⟨hother, hoffered⟩ := not_or.mp hspared
    obtain rfl : other = contest := (not_not.mp hother).symm.trans hcontest
    obtain ⟨role, hlast⟩ := Option.ne_none_iff_exists'.mp hoffered
    obtain ⟨last, hmem, hlastPreset, rfl⟩ := exists_offer_of_lastRole? hlast
    obtain ⟨met, hmet, hmetPreset, hmetRole⟩ := hsettled.met hlast
    refine ⟨met, hmet, hmetPreset.trans hpreset, hmetRole.trans ?_⟩
    exact hagree rfl last hmem offer hoffer (hlastPreset.trans hpreset)

/-- Settling offers leaves the arms that a contest has where they are, and as they are identified,
and lists new ones after them. -/
theorem Settled.isPrefix_armsOf (hsettled : Settled contest offers before after)
    (hsound : before.Sound) (other : Contest) :
    (before.armsOf other).map Arm.identity <+: (after.armsOf other).map Arm.identity := by
  obtain ⟨fresh, hlisted⟩ : ∃ fresh, after.idsOf other = before.idsOf other ++ fresh := by
    by_cases hother : other = contest
    · obtain ⟨fresh, hfresh, -⟩ := hsettled.listed
      exact ⟨fresh, hother ▸ hfresh⟩
    · exact ⟨[], by rw [hsettled.others hother, List.append_nil]⟩
  have hkept : ∀ id ∈ before.idsOf other,
      (after.arms.find? id).map Arm.identity = (before.arms.find? id).map Arm.identity := by
    intro id hid
    obtain ⟨arm, hknown, -⟩ := (hsound.mem_idsOf_iff other id).mp hid
    obtain ⟨role, updatedAt, hfound, -⟩ := hsettled.kept hknown
    rw [hfound, hknown]
    rfl
  rw [armsOf, armsOf, hlisted, List.filterMap_append, List.map_append, List.map_filterMap,
    List.map_filterMap, List.filterMap_congr hkept]
  exact List.prefix_append _ _

end Registry

end ExposureControl
