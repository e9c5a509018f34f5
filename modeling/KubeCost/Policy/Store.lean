/-
# The policy store

`services/policy/store.go`: versions of policies by tenant and family, at most one of
them active. The active version is kept twice, as the family's `activeVersion` and as
the status of the version; `activateVersion` writes both. A call is one critical
section, so a history of the store is a list of calls.

`policy_store` is what holds in every history: the two records agree, a version keeps
what it was created with, no version is created twice, a call that fails changes
nothing and no call touches another family.
-/
import Mathlib.Logic.Function.Basic
import KubeCost.Keyed
import KubeCost.Rfc3339
import KubeCost.Text

namespace KubeCost
namespace Policy

open Keyed

/-! ### Types -/

inductive Status
  | draft
  | active
  | inactive
deriving DecidableEq

structure VersionRequest where
  version : String := ""
  description : String := ""
  effectiveStart : String := ""
  rules : RawMessage
deriving DecidableEq

structure PolicyVersion where
  tenantId : String
  family : String
  version : String
  description : String
  status : Status
  effectiveStart : Instant
  rules : RawMessage
  createdBy : String
  createdAt : Instant
  activatedBy : String := ""
  activatedAt : Option Instant := none
deriving DecidableEq

/-- `policyFamilyState`. -/
structure FamilyState where
  /-- Empty when no version was activated. -/
  activeVersion : String := ""
  versions : Map String PolicyVersion := ∅

structure Store where
  families : Map String (Map String FamilyState)

def newStore : Store := ⟨∅⟩

/-- `s.families[tenantID][family]`. -/
def Store.family (s : Store) (tenantID family : String) : Option FamilyState :=
  (s.families.lookup tenantID).bind fun families => families.lookup family

/-- `s.families[tenantID][family] = state`. -/
def Store.put (s : Store) (tenantID family : String) (state : FamilyState) : Store :=
  ⟨s.families.insert tenantID (((s.families.lookup tenantID).getD ∅).insert family state)⟩

/-- `newPolicyVersionID`, from the random bytes or, when there are none, the clock. -/
def newPolicyVersionID (random : Option (Fin 8 → UInt8)) (clock : Instant) : String :=
  match random with
  | some data => "policy_" ++ hexEncode (List.ofFn data)
  | none => "policy-" ++ formatInt clock

/-- `mustPolicyTime`. -/
def mustPolicyTime (value : String) (fallback : Instant) : Instant :=
  if value = "" then fallback else (Instant.parseRFC3339 value).getD fallback

def clonePolicy (policy : PolicyVersion) : PolicyVersion :=
  { policy with rules := cloneRawMessage policy.rules }

/-! ### Calls -/

inductive Error
  | versionExists
  /-- `ActivateVersion` returns false. -/
  | notFound
deriving DecidableEq

/-- The maps that `CreateVersion` makes where they are missing. -/
def Store.ensure (s : Store) (tenantID family : String) : Store :=
  let s := if (s.families.lookup tenantID).isNone then ⟨s.families.insert tenantID ∅⟩ else s
  if (s.family tenantID family).isNone then s.put tenantID family {} else s

/-- `CreateVersion`; `generated` is what `newPolicyVersionID` returns. -/
def createVersion (s : Store) (tenantID family createdBy : String) (request : VersionRequest)
    (now : Instant) (generated : String) : Store × Except Error PolicyVersion :=
  let version := if request.version = "" then generated else request.version
  let policy : PolicyVersion :=
    { tenantId := tenantID
      family := family
      version := version
      description := request.description
      status := .draft
      effectiveStart := mustPolicyTime request.effectiveStart now
      rules := cloneRawMessage request.rules
      createdBy := createdBy
      createdAt := now }
  let s := s.ensure tenantID family
  let state := (s.family tenantID family).getD {}
  if (state.versions.lookup version).isSome then (s, .error .versionExists)
  else
    (s.put tenantID family { state with versions := state.versions.insert version policy },
      .ok (clonePolicy policy))

/-- `ActivateVersion`. The loop over the versions visits them in any order. -/
def activateVersion (s : Store) (tenantID family version actor : String) (now : Instant)
    (order : Order ((_ : String) × PolicyVersion)) : Store × Except Error PolicyVersion :=
  match s.family tenantID family with
  | none => (s, .error .notFound)
  | some state =>
    match state.versions.lookup version with
    | none => (s, .error .notFound)
    | some policy =>
      let versions := revise order (fun current => current.status = .active)
        (fun current => { current with status := .inactive }) state.versions
      let policy := { policy with status := .active, activatedBy := actor, activatedAt := some now }
      (s.put tenantID family ⟨version, versions.insert version policy⟩, .ok (clonePolicy policy))

inductive Call
  | create (tenantID family createdBy : String) (request : VersionRequest) (now : Instant)
    (random : Option (Fin 8 → UInt8)) (clock : Instant)
  | activate (tenantID family version actor : String) (now : Instant)
    (order : Order ((_ : String) × PolicyVersion))

def Store.call (s : Store) : Call → Store × Except Error PolicyVersion
  | .create tenantID family createdBy request now random clock =>
    createVersion s tenantID family createdBy request now (newPolicyVersionID random clock)
  | .activate tenantID family version actor now order =>
    activateVersion s tenantID family version actor now order

/-- The tenant and the family of a call. -/
def Call.target : Call → String × String
  | .create tenantID family _ _ _ _ _ => (tenantID, family)
  | .activate tenantID family _ _ _ _ => (tenantID, family)

/-- The store after the calls. -/
def Store.after (s : Store) (calls : List Call) : Store := calls.foldl (fun s call => (s.call call).1) s

/-- The version that a call creates in a store. -/
def Store.creates (s : Store) : Call → Option (String × String × String)
  | .create tenantID family createdBy request now random clock =>
    match (s.call (.create tenantID family createdBy request now random clock)).2 with
    | .ok policy => some (tenantID, family, policy.version)
    | .error _ => none
  | .activate .. => none

/-- The versions that calls create, one after the other. -/
def Store.created (s : Store) : List Call → List (String × String × String)
  | [] => []
  | call :: calls => (s.creates call).toList ++ (s.call call).1.created calls

/-! ### Reading the store -/

def Store.version (s : Store) (tenantID family version : String) : Option PolicyVersion :=
  (s.family tenantID family).bind fun state => state.versions.lookup version

/-- The version that the family records as active. -/
def Store.recorded (s : Store) (tenantID family : String) : Option String :=
  ((s.family tenantID family).map (·.activeVersion)).filter (· ≠ "")

/-- What a version is created with: its rules and the metadata of the creation. -/
def PolicyVersion.creation (policy : PolicyVersion) : PolicyVersion :=
  { policy with status := .draft, activatedBy := "", activatedAt := none }

variable {s s' : Store} {t f t' f' : String}

@[simp] theorem family_put_self (s : Store) (t f : String) (state : FamilyState) :
    (s.put t f state).family t f = some state := by
  simp [Store.put, Store.family]

theorem family_put_of_ne (state : FamilyState) (h : (t', f') ≠ (t, f)) :
    (s.put t f state).family t' f' = s.family t' f' := by
  unfold Store.put Store.family
  by_cases ht : t' = t
  · subst ht
    have hf : f' ≠ f := fun hf => h (by rw [hf])
    rw [AList.lookup_insert, Option.bind_some, AList.lookup_insert_ne hf]
    cases s.families.lookup t' with
    | none => rfl
    | some families => rfl
  · rw [AList.lookup_insert_ne ht]

/-- An empty map for a tenant without one is not seen. -/
theorem family_insert_empty (h : s.families.lookup t = none) :
    (Store.mk (s.families.insert t ∅)).family t' f' = s.family t' f' := by
  unfold Store.family
  by_cases ht : t' = t
  · subst ht
    rw [AList.lookup_insert, h]
    rfl
  · rw [AList.lookup_insert_ne ht]

theorem ensure_eq_self (h : (s.family t f).isSome) : s.ensure t f = s := by
  have htenant : (s.families.lookup t).isNone = false := by
    cases hlookup : s.families.lookup t with
    | none =>
      rw [Store.family, hlookup] at h
      cases h
    | some families => rfl
  have hfamily : (s.family t f).isNone = false := by
    rw [Option.isNone_eq_false_iff]
    exact h
  simp [Store.ensure, htenant, hfamily]

theorem family_ensure_self (s : Store) (t f : String) :
    (s.ensure t f).family t f = some ((s.family t f).getD {}) := by
  cases hfamily : s.family t f with
  | some state =>
    rw [ensure_eq_self (by rw [hfamily]; rfl), hfamily]
    rfl
  | none =>
    unfold Store.ensure
    cases hlookup : s.families.lookup t with
    | none => simp [family_insert_empty hlookup, hfamily]
    | some families => simp [hfamily]

theorem family_ensure_of_ne (h : (t', f') ≠ (t, f)) :
    (s.ensure t f).family t' f' = s.family t' f' := by
  unfold Store.ensure
  cases hlookup : s.families.lookup t with
  | none =>
    simp only [Option.isNone_none, if_true]
    split
    · rw [family_put_of_ne _ h, family_insert_empty hlookup]
    · rw [family_insert_empty hlookup]
  | some families =>
    simp only [Option.isNone_some, Bool.false_eq_true, if_false]
    split
    · rw [family_put_of_ne _ h]
    · rfl

/-! ### What a call can do -/

/-- The version is no longer the active one. -/
def PolicyVersion.retired (policy : PolicyVersion) : PolicyVersion :=
  if policy.status = .active then { policy with status := .inactive } else policy

/-- One family has a new state and the others have the old one. -/
structure Changes (s : Store) (t f : String) (state : FamilyState) (s' : Store) : Prop where
  here : s'.family t f = some state
  others : ∀ t' f', (t', f') ≠ (t, f) → s'.family t' f' = s.family t' f'

theorem changes_put (s : Store) (t f : String) (state : FamilyState) :
    Changes s t f state (s.put t f state) :=
  ⟨family_put_self s t f state, fun _ _ h => family_put_of_ne state h⟩

/-- The ways through the two functions. -/
inductive Effect (s : Store) : Call → Store × Except Error PolicyVersion → Prop
  | failed {call e} : Effect s call (s, .error e)
  | created {t f createdBy request now random clock policy s'}
    (named : policy.version ≠ "") (draft : policy.status = .draft)
    (fresh : s.version t f policy.version = none)
    (changes : Changes s t f ⟨((s.family t f).getD {}).activeVersion,
      ((s.family t f).getD {}).versions.insert policy.version policy⟩ s') :
    Effect s (.create t f createdBy request now random clock) (s', .ok (clonePolicy policy))
  | activated {t f version actor now order state policy versions s'}
    (family : s.family t f = some state) (found : state.versions.lookup version = some policy)
    (self : versions.lookup version =
      some { policy with status := .active, activatedBy := actor, activatedAt := some now })
    (others : ∀ v, v ≠ version → versions.lookup v = (state.versions.lookup v).map PolicyVersion.retired)
    (changes : Changes s t f ⟨version, versions⟩ s') :
    Effect s (.activate t f version actor now order) (s', .ok (clonePolicy
      { policy with status := .active, activatedBy := actor, activatedAt := some now }))

theorem newPolicyVersionID_ne (random : Option (Fin 8 → UInt8)) (clock : Instant) :
    newPolicyVersionID random clock ≠ "" := by
  unfold newPolicyVersionID
  cases random <;> simp

theorem version_eq_none {v : String} :
    s.version t f v = none ↔ ((s.family t f).getD {}).versions.lookup v = none := by
  unfold Store.version
  cases s.family t f with
  | none => exact ⟨fun _ => rfl, fun _ => rfl⟩
  | some state => rfl

/-- **Every call is one of these.** -/
theorem call_effect (s : Store) (call : Call) : Effect s call (s.call call) := by
  cases call with
  | create t f createdBy request now random clock =>
    have hnamed : (if request.version = "" then newPolicyVersionID random clock
        else request.version) ≠ "" := by
      split
      · exact newPolicyVersionID_ne random clock
      · assumption
    simp only [Store.call, createVersion, family_ensure_self, Option.getD_some]
    generalize (if request.version = "" then newPolicyVersionID random clock else request.version) =
      version at *
    split
    · rename_i hexists
      -- a family with a version was there before
      have hfamily : (s.family t f).isSome := by
        cases hnone : s.family t f with
        | some state => rfl
        | none =>
          rw [hnone] at hexists
          cases hexists
      rw [ensure_eq_self hfamily]
      exact .failed
    · rename_i hfresh
      rw [Bool.not_eq_true, Option.isSome_eq_false_iff, Option.isNone_iff_eq_none] at hfresh
      have hchanges := changes_put (s.ensure t f) t f
      refine .created hnamed rfl (version_eq_none.mpr hfresh) ⟨(hchanges _).here, fun t' f' h => ?_⟩
      rw [(hchanges _).others t' f' h, family_ensure_of_ne h]
  | activate t f version actor now order =>
    simp only [Store.call, activateVersion]
    split
    · exact .failed
    · rename_i state hfamily
      split
      · exact .failed
      · rename_i policy hfound
        refine .activated hfamily hfound (AList.lookup_insert _) (fun v hv => ?_) (changes_put s t f _)
        rw [AList.lookup_insert_ne hv, lookup_revise]
        congr 1
        funext current
        simp [PolicyVersion.retired]

/-! ### The invariant -/

/-- The record of the active version and the statuses agree. -/
structure FamilyState.Ok (state : FamilyState) : Prop where
  named : ∀ v policy, state.versions.lookup v = some policy → v ≠ ""
  recorded : state.activeVersion ≠ "" →
    ∃ policy, state.versions.lookup state.activeVersion = some policy ∧ policy.status = .active
  active : ∀ v policy, state.versions.lookup v = some policy → policy.status = .active →
    state.activeVersion = v

/-- Every family of the store is in order. -/
def Store.Ok (s : Store) : Prop := ∀ t f state, s.family t f = some state → state.Ok

theorem FamilyState.ok_empty : FamilyState.Ok {} where
  named _ _ h := nomatch h
  recorded h := absurd rfl h
  active _ _ h := nomatch h

theorem Store.Ok.getD (h : s.Ok) (t f : String) : ((s.family t f).getD {}).Ok := by
  cases hfamily : s.family t f with
  | none => exact FamilyState.ok_empty
  | some state => exact h t f state hfamily

/-- A new draft changes nothing about the active version. -/
theorem FamilyState.Ok.insert {state : FamilyState} {policy : PolicyVersion} (h : state.Ok)
    (named : policy.version ≠ "") (draft : policy.status = .draft)
    (fresh : state.versions.lookup policy.version = none) :
    FamilyState.Ok { state with versions := state.versions.insert policy.version policy } where
  named v p hv := by
    by_cases heq : v = policy.version
    · rwa [heq]
    · rw [AList.lookup_insert_ne heq] at hv
      exact h.named v p hv
  recorded hne := by
    obtain ⟨p, hp, hactive⟩ := h.recorded hne
    refine ⟨p, ?_, hactive⟩
    have heq : state.activeVersion ≠ policy.version := by
      intro heq
      rw [heq, fresh] at hp
      cases hp
    rwa [AList.lookup_insert_ne heq]
  active v p hv hactive := by
    by_cases heq : v = policy.version
    · subst heq
      rw [AList.lookup_insert] at hv
      cases hv
      rw [draft] at hactive
      cases hactive
    · rw [AList.lookup_insert_ne heq] at hv
      exact h.active v p hv hactive

theorem PolicyVersion.retired_status (policy : PolicyVersion) : policy.retired.status ≠ .active := by
  unfold PolicyVersion.retired
  split
  · exact fun h => nomatch h
  · assumption

/-- The activated version is the only active one. -/
theorem FamilyState.Ok.activate {state : FamilyState} {policy policy' : PolicyVersion}
    {version : String} {versions : Map String PolicyVersion} (h : state.Ok)
    (found : state.versions.lookup version = some policy) (active : policy'.status = .active)
    (self : versions.lookup version = some policy')
    (others : ∀ v, v ≠ version → versions.lookup v = (state.versions.lookup v).map PolicyVersion.retired) :
    FamilyState.Ok ⟨version, versions⟩ where
  named v p hv := by
    by_cases heq : v = version
    · rw [heq]
      exact h.named version policy found
    · rw [others v heq] at hv
      obtain ⟨old, hold, -⟩ := Option.map_eq_some_iff.mp hv
      exact h.named v old hold
  recorded _ := ⟨policy', self, active⟩
  active v p hv hactive := by
    by_contra hne
    rw [others v (Ne.symm hne)] at hv
    obtain ⟨old, -, rfl⟩ := Option.map_eq_some_iff.mp hv
    exact old.retired_status hactive

theorem Store.Ok.changes {state : FamilyState} (h : s.Ok) (hstate : state.Ok)
    (hchanges : Changes s t f state s') : s'.Ok := by
  intro t' f' state' hfamily
  by_cases heq : (t', f') = (t, f)
  · cases heq
    rw [hchanges.here, Option.some.injEq] at hfamily
    rwa [← hfamily]
  · rw [hchanges.others t' f' heq] at hfamily
    exact h t' f' state' hfamily

/-- **One call keeps the records in agreement.** -/
theorem Store.Ok.call (h : s.Ok) (call : Call) : (s.call call).1.Ok := by
  have heffect := call_effect s call
  generalize s.call call = result at heffect ⊢
  cases heffect with
  | failed => exact h
  | created named draft fresh changes =>
    exact h.changes ((h.getD _ _).insert named draft (version_eq_none.mp fresh)) changes
  | activated family found self others changes =>
    exact h.changes ((h _ _ _ family).activate found rfl self others) changes

theorem Store.Ok.after : ∀ {s : Store} (calls : List Call), s.Ok → (s.after calls).Ok
  | _, [], h => h
  | _, call :: calls, h => Store.Ok.after calls (h.call call)

theorem ok_newStore : newStore.Ok := fun _ _ _ h => nomatch h

/-! ### Versions stay -/

/-- Every version is still there, as it was created. -/
def Keeps (s s' : Store) : Prop := ∀ t f v policy, s.version t f v = some policy →
  ∃ policy', s'.version t f v = some policy' ∧ policy'.creation = policy.creation

theorem Keeps.refl (s : Store) : Keeps s s := fun _ _ _ policy h => ⟨policy, h, rfl⟩

theorem Keeps.trans {s'' : Store} (h : Keeps s s') (h' : Keeps s' s'') : Keeps s s'' := by
  intro t f v policy hv
  obtain ⟨policy', hv', hcreation⟩ := h t f v policy hv
  obtain ⟨policy'', hv'', hcreation'⟩ := h' t f v policy' hv'
  exact ⟨policy'', hv'', hcreation'.trans hcreation⟩

theorem PolicyVersion.retired_creation (policy : PolicyVersion) :
    policy.retired.creation = policy.creation := by
  unfold PolicyVersion.retired
  split <;> rfl

theorem keeps_changes {state : FamilyState} (hchanges : Changes s t f state s')
    (hstate : ∀ v policy, s.version t f v = some policy →
      ∃ policy', state.versions.lookup v = some policy' ∧ policy'.creation = policy.creation) :
    Keeps s s' := by
  intro t' f' v policy hv
  by_cases heq : (t', f') = (t, f)
  · cases heq
    obtain ⟨policy', hv', hcreation⟩ := hstate v policy hv
    refine ⟨policy', ?_, hcreation⟩
    rw [Store.version, hchanges.here]
    exact hv'
  · refine ⟨policy, ?_, rfl⟩
    rw [Store.version, hchanges.others t' f' heq]
    exact hv

theorem keeps_call (s : Store) (call : Call) : Keeps s (s.call call).1 := by
  have heffect := call_effect s call
  generalize s.call call = result at heffect ⊢
  cases heffect with
  | failed => exact .refl s
  | @created t f _ _ _ _ _ policy s' named draft fresh changes =>
    refine keeps_changes changes fun v old hv => ⟨old, ?_, rfl⟩
    have hne : v ≠ policy.version := by
      rintro rfl
      rw [fresh] at hv
      cases hv
    rw [AList.lookup_insert_ne hne]
    cases hfamily : s.family t f with
    | none =>
      rw [Store.version, hfamily] at hv
      cases hv
    | some state =>
      rw [Store.version, hfamily] at hv
      exact hv
  | @activated t f version _ _ _ state policy versions s' family found self others changes =>
    refine keeps_changes changes fun v old hv => ?_
    rw [Store.version, family, Option.bind_some] at hv
    by_cases heq : v = version
    · subst heq
      rw [found, Option.some.injEq] at hv
      subst hv
      exact ⟨_, self, rfl⟩
    · refine ⟨old.retired, ?_, old.retired_creation⟩
      rw [others v heq, hv]
      rfl

theorem keeps_after : ∀ (s : Store) (calls : List Call), Keeps s (s.after calls)
  | s, [] => .refl s
  | s, call :: calls => (keeps_call s call).trans (keeps_after _ calls)

/-! ### No version is created twice -/

theorem creates_spec {call : Call} {v : String} (h : s.creates call = some (t, f, v)) :
    s.version t f v = none ∧ ∃ policy, (s.call call).1.version t f v = some policy := by
  cases call with
  | activate => cases h
  | create t₁ f₁ createdBy request now random clock =>
    have heffect := call_effect s (.create t₁ f₁ createdBy request now random clock)
    rw [Store.creates] at h
    generalize s.call (.create t₁ f₁ createdBy request now random clock) = result at heffect h ⊢
    cases heffect with
    | failed => cases h
    | @created _ _ _ _ _ _ _ policy s' named draft fresh changes =>
      cases h
      refine ⟨fresh, policy, ?_⟩
      rw [Store.version, changes.here, Option.bind_some]
      exact AList.lookup_insert _

/-- A version that is created later is not there now. -/
theorem fresh_of_mem_created : ∀ {s : Store} {calls : List Call} {v : String},
    (t, f, v) ∈ s.created calls → s.version t f v = none
  | s, call :: calls, v, h => by
    rw [Store.created, List.mem_append, Option.mem_toList] at h
    rcases h with h | h
    · exact (creates_spec h).1
    · by_contra hne
      obtain ⟨policy, hv⟩ := Option.ne_none_iff_exists'.mp hne
      obtain ⟨policy', hv', -⟩ := keeps_call s call t f v policy hv
      rw [fresh_of_mem_created h] at hv'
      cases hv'

theorem nodup_created : ∀ (s : Store) (calls : List Call), (s.created calls).Nodup
  | _, [] => List.nodup_nil
  | s, call :: calls => by
    rw [Store.created]
    cases hcreates : s.creates call with
    | none => exact nodup_created _ calls
    | some version =>
      obtain ⟨t, f, v⟩ := version
      refine List.nodup_cons.mpr ⟨fun hmem => ?_, nodup_created _ calls⟩
      obtain ⟨policy, hv⟩ := (creates_spec hcreates).2
      rw [fresh_of_mem_created hmem] at hv
      cases hv

/-! ### The state machine -/

theorem recorded_iff (h : s.Ok) (t f v : String) :
    s.recorded t f = some v ↔ ∃ policy, s.version t f v = some policy ∧ policy.status = .active := by
  unfold Store.recorded Store.version
  cases hfamily : s.family t f with
  | none => simp
  | some state =>
    have hok := h t f state hfamily
    rw [Option.map_some, Option.bind_some, Option.filter_some]
    constructor
    · intro hrecorded
      split at hrecorded
      · rename_i hne
        cases hrecorded
        exact hok.recorded (of_decide_eq_true hne)
      · cases hrecorded
    · rintro ⟨policy, hv, hactive⟩
      have hne := hok.named v policy hv
      rw [hok.active v policy hv hactive, if_pos (decide_eq_true hne)]

theorem active_unique (h : s.Ok) {v v' : String} {policy policy' : PolicyVersion}
    (hv : s.version t f v = some policy) (hv' : s.version t f v' = some policy')
    (hactive : policy.status = .active) (hactive' : policy'.status = .active) : v = v' := by
  have hrecorded := (recorded_iff h t f v).mpr ⟨policy, hv, hactive⟩
  rw [(recorded_iff h t f v').mpr ⟨policy', hv', hactive'⟩] at hrecorded
  exact (Option.some.inj hrecorded).symm

theorem call_error {call : Call} {e : Error} (h : (s.call call).2 = .error e) : (s.call call).1 = s := by
  have heffect := call_effect s call
  generalize s.call call = result at heffect h ⊢
  cases heffect with
  | failed => rfl
  | created | activated => cases h

theorem call_of_ne (call : Call) (h : (t, f) ≠ call.target) :
    (s.call call).1.family t f = s.family t f := by
  have heffect := call_effect s call
  generalize s.call call = result at heffect ⊢
  cases heffect with
  | failed => rfl
  | created _ _ _ changes => exact changes.others t f h
  | activated _ _ _ _ changes => exact changes.others t f h

/-- **The policy store.** After any calls: a family has at most one active version, and it
is the one the family records; whatever calls come next, a version is there with what it
was created with; no version was created twice; a call that fails leaves the store as it
is; and a call changes no other family. -/
theorem policy_store (calls : List Call) :
    (∀ t f v v' policy policy', (newStore.after calls).version t f v = some policy →
      (newStore.after calls).version t f v' = some policy' → policy.status = .active →
      policy'.status = .active → v = v') ∧
    (∀ t f v, (newStore.after calls).recorded t f = some v ↔
      ∃ policy, (newStore.after calls).version t f v = some policy ∧ policy.status = .active) ∧
    (∀ more, Keeps (newStore.after calls) ((newStore.after calls).after more)) ∧
    (newStore.created calls).Nodup ∧
    (∀ call e, ((newStore.after calls).call call).2 = .error e →
      ((newStore.after calls).call call).1 = newStore.after calls) ∧
    (∀ call t f, (t, f) ≠ call.target →
      ((newStore.after calls).call call).1.family t f = (newStore.after calls).family t f) := by
  have hok : (newStore.after calls).Ok := Store.Ok.after calls ok_newStore
  refine ⟨?_, recorded_iff hok, keeps_after _, nodup_created _ _, ?_, ?_⟩
  · intro t f v v' policy policy' hv hv' hactive hactive'
    exact active_unique hok hv hv' hactive hactive'
  · intro call e herror
    exact call_error herror
  · intro call t f hne
    exact call_of_ne call hne

end Policy
end KubeCost
