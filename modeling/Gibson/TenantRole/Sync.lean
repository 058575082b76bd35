import Gibson.TenantRole.Roles
import Gibson.Lib.Loops

/-! A sync converges to the roles of the single valid grants and one Owner. -/

namespace Gibson.TenantRole

open List

lemma subject_toList (id) : ("user:" ++ id).toList = "user:".toList ++ id.toList :=
  String.toList_append

lemma drop_start (rest) : ("user:".toList ++ rest).drop 5 = rest :=
  drop_left' (by decide)

lemma subject_drop (id) : String.ofList (("user:" ++ id).toList.drop 5) = id := by
  rw [subject_toList, drop_start, String.ofList_toList]

lemma subject_inj {id id'} (hs : "user:" ++ id = "user:" ++ id') : id = id' := by
  rw [← subject_drop id, hs, subject_drop]

lemma userIDFromSubject_subject {id} (hne : id ≠ "") :
    userIDFromSubject ("user:" ++ id) = id := by
  have long : 5 < ("user:" ++ id).length := by
    have some : id.toList ≠ [] := by simpa using hne
    have := length_pos_iff.mpr some
    rw [← String.length_toList, subject_toList, length_append]
    simp only [String.length_toList] at *
    have : "user:".length = 5 := by decide
    omega
  have s0 : "user:".toList.isPrefixOf ("user:" ++ id).toList = true := by
    rw [subject_toList]
    exact isPrefixOf_iff_prefix.mpr (prefix_append _ _)
  rw [userIDFromSubject, if_pos ⟨long, s0⟩, subject_drop]

section
variable {ids : IDPattern}

lemma isZitadelUserSubject_iff : isZitadelUserSubject ids subject = true ↔
      ∃ id, ids.accepts id = true ∧ subject = "user:" ++ id := by
  unfold isZitadelUserSubject
  constructor
  · intro hac
    obtain ⟨s0, id⟩ := Bool.and_eq_true_iff.mp hac
    obtain ⟨rs, split⟩ := isPrefixOf_iff_prefix.mp s0
    refine ⟨_, id, ?_⟩
    have tail : (String.ofList rs).toList = rs := String.toList_ofList
    rw [← String.toList_inj, subject_toList, ← split, drop_start, tail]
  · rintro ⟨id, hac, rfl⟩
    rw [subject_drop, hac, Bool.and_true, subject_toList]
    exact isPrefixOf_iff_prefix.mpr (prefix_append _ _)

lemma IDPattern.ne_empty {id} (hac : ids.accepts id = true) : id ≠ "" := by
  rintro rfl
  rw [ids.nonempty] at hac
  contradiction

variable {tenantID u : String}

lemma roleTuple_inj
    (hs : roleTuple tenantID u rel = roleTuple tenantID v rel') : u = v ∧ rel = rel' := by
  simp only [roleTuple, Tuple.mk.injEq, and_true] at hs
  exact ⟨subject_inj hs.1, hs.2⟩

variable {store : List Tuple} {tup : Tuple}

lemma mem_readRoles : tup ∈ readRoles ids store tenantID ↔
      ∃ u rel, ids.accepts u = true ∧ rel ∈ relations ∧ tup = roleTuple tenantID u rel ∧
        tup ∈ store := by
  simp only [readRoles, mem_filter, Bool.and_eq_true, beq_iff_eq, contains_iff_mem,
    isZitadelUserSubject_iff]
  constructor
  · rintro ⟨hst, ⟨obj, rn⟩, u, hac, user⟩
    exact ⟨u, tup.relation, hac, rn, by rw [roleTuple, ← obj, ← user], hst⟩
  · rintro ⟨u, rel, hac, rn, rfl, hst⟩
    exact ⟨hst, ⟨rfl, rn⟩, u, hac, rfl⟩

lemma mem_actualOf : tup ∈ actualOf (readRoles ids store tenantID) u ↔
      ∃ rel, ids.accepts u = true ∧ rel ∈ relations ∧ tup = roleTuple tenantID u rel ∧
        tup ∈ store := by
  rw [actualOf, mem_filter, mem_readRoles]
  constructor
  · rintro ⟨⟨v, rel, hac, rn, rfl, hst⟩, hs⟩
    obtain rfl : v = u := by
      simpa [roleTuple, userIDFromSubject_subject (IDPattern.ne_empty hac)] using hs
    exact ⟨rel, hac, rn, rfl, hst⟩
  · rintro ⟨rel, hac, rn, rfl, hst⟩
    refine ⟨⟨u, rel, hac, rn, rfl, hst⟩, ?_⟩
    simp [roleTuple, userIDFromSubject_subject (IDPattern.ne_empty hac)]

lemma mem_actualUsers : u ∈ actualUsers (readRoles ids store tenantID) ↔
      ids.accepts u = true ∧ ∃ rel ∈ relations, roleTuple tenantID u rel ∈ store := by
  rw [actualUsers, mem_dedup, mem_map]
  constructor
  · rintro ⟨tup, read, rfl⟩
    obtain ⟨v, rel, hac, rn, rfl, hst⟩ := mem_readRoles.mp read
    have hs : userIDFromSubject (roleTuple tenantID v rel).user = v :=
      userIDFromSubject_subject (IDPattern.ne_empty hac)
    rw [hs]
    exact ⟨hac, rel, rn, hst⟩
  · rintro ⟨hac, rel, rn, hst⟩
    exact ⟨roleTuple tenantID u rel, mem_readRoles.mpr ⟨u, rel, hac, rn, rfl, hst⟩,
      userIDFromSubject_subject (IDPattern.ne_empty hac)⟩

lemma Role.relation_mem (rl : Role) : rl.relation ∈ relations := by
  cases rl <;> decide

lemma Role.relation_inj {rl rol' : Role} (hs : rl.relation = rol'.relation) :
    rl = rol' := by
  revert hs
  cases rl <;> cases rol' <;> decide

def IsOwner (ids : IDPattern) (tenantID : String) (store : List Tuple) (u : String) : Prop :=
  ids.accepts u = true ∧ roleTuple tenantID u Role.owner.relation ∈ store

lemma hasOwner_iff :
    hasOwner (readRoles ids store tenantID) u = true ↔ IsOwner ids tenantID store u := by
  simp only [hasOwner, any_eq_true, mem_actualOf, beq_iff_eq]
  constructor
  · rintro ⟨tup, ⟨rel, hac, -, rfl, hst⟩, ow⟩
    obtain rfl : rel = Role.owner.relation := ow
    exact ⟨hac, hst⟩
  · rintro ⟨hac, hst⟩
    exact ⟨_, ⟨_, hac, Role.owner.relation_mem, rfl, hst⟩, rfl⟩

lemma IsOwner.mem_actualUsers (ow : IsOwner ids tenantID store u) :
    u ∈ actualUsers (readRoles ids store tenantID) :=
  TenantRole.mem_actualUsers.mpr ⟨ow.1, _, Role.owner.relation_mem, ow.2⟩

variable {writes deletes : List Tuple}

lemma mem_writeAndDelete (applied : writeAndDelete store writes deletes = some store') (tup) :
    tup ∈ store' ↔ (tup ∈ store ∧ tup ∉ deletes) ∨ tup ∈ writes := by
  unfold writeAndDelete at applied
  split at applied
  · cases applied
    simp
  · contradiction

variable {desired : Desired} {read : List Tuple}

lemma mem_missing : tup ∈ missing tenantID desired read u ↔
      ∃ rl, desired.lookup u = some rl ∧ tup = roleTuple tenantID u rl.relation ∧
        ∀ hxs ∈ actualOf read u, hxs.relation ≠ rl.relation := by
  unfold missing
  cases desired.lookup u with
  | none => simp
  | some rl =>
    simp only [Option.some.injEq, exists_eq_left']
    split
    · rename_i hf
      obtain ⟨hxs, mem, hs⟩ := any_eq_true.mp hf
      simp only [not_mem_nil, false_iff, not_and, not_forall]
      exact fun _ => ⟨hxs, mem, by simpa using hs⟩
    · rename_i hab
      simpa using fun _ hxs mem hs => hab (any_eq_true.mpr ⟨hxs, mem, by simp [hs]⟩)

lemma mem_stale : tup ∈ stale desired read u ↔
      tup ∈ actualOf read u ∧ ∀ rl, desired.lookup u = some rl → tup.relation ≠ rl.relation := by
  rw [stale, mem_filter]
  cases desired.lookup u with
  | none | some rl => simp

/-- The users who are Owners after a sync: those outside its scope, and those in it who should be.
-/
def newOwners (users : List String) (desired : Desired) (read : List Tuple) : List String :=
  let scope := syncScope users desired read
  ((actualUsers read).filter fun u => hasOwner read u && !scope.contains u) ++
    scope.filter fun u => desired.lookup u == some .owner

variable {users : List String}

lemma mem_newOwners : u ∈ newOwners users desired (readRoles ids store tenantID) ↔
      (IsOwner ids tenantID store u ∧ u ∉ syncScope users desired (readRoles ids store tenantID)) ∨
      (u ∈ syncScope users desired (readRoles ids store tenantID) ∧
        desired.lookup u = some .owner) := by
  simp only [newOwners, mem_append, mem_filter, Bool.and_eq_true, hasOwner_iff,
    Bool.not_eq_true', contains_eq_mem, decide_eq_false_iff_not, beq_iff_eq]
  refine or_congr_left ⟨fun hf => hf.2, fun hf => ⟨hf.1.mem_actualUsers, hf⟩⟩

lemma plan_ok (planned : plan t users desired read = .ok (writes, deletes)) :
    diffTuples t.id (syncScope users desired read) desired read = (writes, deletes) ∧
      ((newOwners users desired read).length = 1 ∨
        (newOwners users desired read = [] ∧ ∀ u ∈ actualUsers read, hasOwner read u = false)) := by
  obtain ⟨_, hck, hs⟩ := Loops.bind_ok_iff.mp planned
  refine ⟨Except.ok.inj hs, ?_⟩
  have ct : (actualUsers read).countP (fun u =>
        hasOwner read u && !(syncScope users desired read).contains u) +
      (syncScope users desired read).countP (fun u => desired.lookup u == some .owner) =
      (newOwners users desired read).length := by
    simp only [newOwners, countP_eq_length_filter, length_append]
  simp only [checkOwnerInvariant, ct] at hck
  split at hck
  · contradiction
  rename_i kp
  by_cases one : (newOwners users desired read).length = 1
  · exact .inl one
  refine .inr ⟨?_, fun u mem => ?_⟩
  · by_contra some
    exact kp ⟨one, .inl fun none => some (length_eq_zero_iff.mp none)⟩
  by_contra owner
  refine kp ⟨one, .inr (Nat.ne_of_gt (countP_pos_iff.mpr ⟨u, mem, ?_⟩))⟩
  simpa using owner

section
variable {t : Tenant} {users : List String} {desired : Desired} {store writes deletes : List Tuple}

section
variable (planned : plan t users desired (readRoles ids store t.id) = .ok (writes, deletes))
include planned

lemma mem_writes :
    tup ∈ writes ↔ ∃ u ∈ syncScope users desired (readRoles ids store t.id),
        tup ∈ missing t.id desired (readRoles ids store t.id) u := by
  cases (plan_ok planned).1
  exact mem_flatMap

lemma mem_deletes :
    tup ∈ deletes ↔ ∃ u ∈ syncScope users desired (readRoles ids store t.id),
        tup ∈ stale desired (readRoles ids store t.id) u := by
  cases (plan_ok planned).1
  exact mem_flatMap

lemma roleTuple_mem_deletes :
    roleTuple t.id u rel ∈ deletes ↔
      u ∈ syncScope users desired (readRoles ids store t.id) ∧ ids.accepts u = true ∧
        rel ∈ relations ∧ roleTuple t.id u rel ∈ store ∧
        ∀ role, desired.lookup u = some role → rel ≠ role.relation := by
  rw [mem_deletes planned]
  simp only [mem_stale, mem_actualOf]
  constructor
  · rintro ⟨v, sc, ⟨rel', hac, rn, hs, hst⟩, ho⟩
    obtain ⟨rfl, rfl⟩ := roleTuple_inj hs
    exact ⟨sc, hac, rn, hst, ho⟩
  · rintro ⟨sc, hac, rn, hst, ho⟩
    exact ⟨u, sc, ⟨rel, hac, rn, rfl, hst⟩, ho⟩

lemma roleTuple_mem_writes (hac : ids.accepts u = true) :
    roleTuple t.id u rel ∈ writes ↔ u ∈ syncScope users desired (readRoles ids store t.id) ∧
        (∃ rl, desired.lookup u = some rl ∧ rel = rl.relation) ∧
        roleTuple t.id u rel ∉ store := by
  rw [mem_writes planned]
  simp only [mem_missing, mem_actualOf]
  constructor
  · rintro ⟨v, sc, rl, lkp, hs, hab⟩
    obtain ⟨rfl, rfl⟩ := roleTuple_inj hs
    refine ⟨sc, ⟨rl, lkp, rfl⟩, fun hst => ?_⟩
    exact hab _ ⟨_, hac, rl.relation_mem, rfl, hst⟩ rfl
  · rintro ⟨sc, ⟨rl, lkp, rfl⟩, hab⟩
    refine ⟨u, sc, rl, lkp, rfl, ?_⟩
    rintro _ ⟨rel, -, -, rfl, hst⟩ hs
    obtain rfl : rel = rl.relation := hs
    exact hab hst

end
end

lemma lookup_filterMap (f : String → Option Role) (users : List String) (u) :
    (users.filterMap fun v => (f v).map fun rl => (v, rl)).lookup u =
      if u ∈ users then f u else none := by
  induction users with
  | nil => rfl
  | cons v users ih =>
    by_cases hs : u = v
    · subst hs
      cases rl : f u with
      | none => simp [rl, ih]
      | some rol' => simp [rl]
    · cases rl : f v with
      | none => simp [rl, ih, hs]
      | some rol' => simp [rl, lookup_cons, hs, ih, beq_eq_false_iff_ne.mpr hs]

lemma lookup_desiredRoles (grants : List Grant) (t u) :
    (desiredRoles grants t).1.lookup u = desiredRole grants t u := by
  rw [desiredRoles, lookup_filterMap]
  split
  · rfl
  rename_i hab
  have none : grantsOf grants u = [] := by
    refine filter_eq_nil_iff.mpr fun g mem hs => hab ?_
    exact mem_dedup.mpr (mem_map.mpr ⟨g, mem, by simpa using hs⟩)
  rw [desiredRole, none]

lemma mem_of_desiredRole
    (desired : desiredRole grants t u = some role) : ∃ g ∈ grants, g.userID = u := by
  unfold desiredRole at desired
  split at desired
  · rename_i g single
    have mem : g ∈ grantsOf grants u := by simp [single]
    obtain ⟨gt, hs⟩ := mem_filter.mp mem
    exact ⟨g, gt, by simpa using hs⟩
  · contradiction

def InScope (users : List String) (u : String) : Prop := users = [] ∨ u ∈ users

/-- Each user in scope has the role tuple of the single valid grant and no other, all other tuples
are as they were, and one user is Owner, or none where none was. -/
structure Converged (ids : IDPattern) (t : Tenant) (users : List String) (grants : List Grant)
    (store store' : List Tuple) : Prop where
  set : store'.Nodup
  roles : ∀ u, ids.accepts u = true → InScope users u → ∀ rel ∈ relations,
    (roleTuple t.id u rel ∈ store' ↔ ∃ role, desiredRole grants t u = some role ∧ rel = role.relation)
  others : ∀ tup, (∀ u rel, ids.accepts u = true → InScope users u → rel ∈ relations →
    tup ≠ roleTuple t.id u rel) → (tup ∈ store' ↔ tup ∈ store)
  owner : (∃! u, IsOwner ids t.id store' u) ∨
    ((∀ u, ¬IsOwner ids t.id store' u) ∧ ∀ u, ¬IsOwner ids t.id store u)

lemma mem_syncScope (sc : u ∈ syncScope users desired read) : InScope users u := by
  unfold syncScope at sc
  split at sc
  · exact .inr sc
  · exact .inl (not_not.mp ‹_›)

lemma not_mem_syncScope (mb : InScope users u)
    (hab : u ∉ syncScope users desired (readRoles ids store tenantID)) :
    desired.lookup u = none ∧
      (ids.accepts u = true → ∀ rel ∈ relations, roleTuple tenantID u rel ∉ store) := by
  rcases mb with rfl | listed
  · simp only [syncScope, ne_eq, not_true, if_false, mem_dedup, mem_append, not_or,
      mem_actualUsers, not_and, not_exists] at hab
    refine ⟨?_, fun hac rel rn hst => hab.2 hac rel rn hst⟩
    rw [lookup_eq_none_iff]
    intro en mem
    exact bne_iff_ne.mpr fun hs => hab.1 (mem_map.mpr ⟨en, mem, hs.symm⟩)
  · have some : users ≠ [] := ne_nil_of_mem listed
    rw [syncScope, if_pos some] at hab
    contradiction

section
variable {t : Tenant} {users : List String} {grants : List Grant}
  {store writes deletes store' : List Tuple}

section
variable (planned : plan t users (desiredRoles grants t).1 (readRoles ids store t.id) = .ok (writes, deletes))
include planned

section
variable (applied : ∀ tup, tup ∈ store' ↔ (tup ∈ store ∧ tup ∉ deletes) ∨ tup ∈ writes)
include applied

lemma roleTuple_mem_applied
    (hac : ids.accepts u = true) (mb : InScope users u) (rn : rel ∈ relations) :
    roleTuple t.id u rel ∈ store' ↔
      ∃ role, desiredRole grants t u = some role ∧ rel = role.relation := by
  rw [applied, roleTuple_mem_deletes planned, roleTuple_mem_writes planned hac]
  simp only [lookup_desiredRoles]
  by_cases sc : u ∈ syncScope users (desiredRoles grants t).1 (readRoles ids store t.id)
  · by_cases hst : roleTuple t.id u rel ∈ store
    · simp [sc, hst, hac, rn]
    · simp [sc, hst]
  · obtain ⟨none, uns⟩ := not_mem_syncScope mb sc
    rw [lookup_desiredRoles] at none
    simp [sc, none, uns hac rel rn]

section
variable (provider : ∀ g ∈ grants, ids.accepts g.userID = true)
include provider

lemma other_mem_applied (ho : ∀ u rel, ids.accepts u = true → InScope users u → rel ∈ relations →
      tup ≠ roleTuple t.id u rel) : tup ∈ store' ↔ tup ∈ store := by
  have und : tup ∉ deletes := by
    intro hdl
    obtain ⟨u, sc, old⟩ := (mem_deletes planned).mp hdl
    obtain ⟨rel, hac, rn, hs, -⟩ := mem_actualOf.mp (mem_stale.mp old).1
    exact ho u rel hac (mem_syncScope sc) rn hs
  have unw : tup ∉ writes := by
    intro hw
    obtain ⟨u, sc, new⟩ := (mem_writes planned).mp hw
    obtain ⟨rl, lkp, hs, -⟩ := mem_missing.mp new
    rw [lookup_desiredRoles] at lkp
    obtain ⟨g, gt, rfl⟩ := mem_of_desiredRole lkp
    exact ho _ _ (provider g gt) (mem_syncScope sc) rl.relation_mem hs
  simp [applied, und, unw]

lemma isOwner_applied (u : String) :
    IsOwner ids t.id store' u ↔
      u ∈ newOwners users (desiredRoles grants t).1 (readRoles ids store t.id) := by
  rw [mem_newOwners, lookup_desiredRoles]
  by_cases sc : u ∈ syncScope users (desiredRoles grants t).1 (readRoles ids store t.id)
  · simp only [sc, not_true, and_false, false_or, true_and]
    constructor
    · rintro ⟨hac, hst⟩
      obtain ⟨rl, desired, hs⟩ := (roleTuple_mem_applied planned applied hac
        (mem_syncScope sc) Role.owner.relation_mem).mp hst
      rw [desired, Role.relation_inj hs]
    · intro desired
      obtain ⟨g, gt, rfl⟩ := mem_of_desiredRole desired
      have hac := provider g gt
      exact ⟨hac, (roleTuple_mem_applied planned applied hac (mem_syncScope sc)
        Role.owner.relation_mem).mpr ⟨_, desired, rfl⟩⟩
  · simp only [sc, not_false_eq_true, and_true, false_and, or_false, IsOwner]
    refine and_congr_right fun hac => ?_
    rw [applied, roleTuple_mem_deletes planned, roleTuple_mem_writes planned hac]
    simp [sc]

lemma converged_of_applied (set : store'.Nodup) : Converged ids t users grants store store' where
  set := set
  roles _ accepted member _ relation := roleTuple_mem_applied planned applied accepted member relation
  others _ other := other_mem_applied planned applied provider other
  owner := by
    have own := isOwner_applied planned applied provider
    rcases (plan_ok planned).2 with one | ⟨none, hb⟩
    · obtain ⟨u, single⟩ := length_eq_one_iff.mp one
      refine .inl ⟨u, (own u).mpr (by simp [single]), fun v owner => ?_⟩
      simpa [single] using (own v).mp owner
    · refine .inr ⟨fun u owner => ?_, fun u owner => ?_⟩
      · simpa [none] using (own u).mp owner
      have hhe := hb u owner.mem_actualUsers
      rw [hasOwner_iff.mpr owner] at hhe
      contradiction

end
end
end
end

lemma nodup_writeAndDelete (set : store.Nodup)
    (applied : writeAndDelete store writes deletes = some store') : store'.Nodup := by
  unfold writeAndDelete at applied
  split at applied
  · rename_i hac
    cases applied
    refine nodup_append.mpr ⟨set.filter _, (nodup_append.mp hac.1).1, ?_⟩
    rintro tup hst _ hw rfl
    exact hac.2.1 tup hw (mem_of_mem_filter hst)
  · contradiction

theorem sync_converges (ids : IDPattern) (t : Tenant) (users : List String) (answers : Answers)
    (store : List Tuple) (set : store.Nodup)
    (provider : ∀ grants, answers.grants = .ok grants → ∀ g ∈ grants, ids.accepts g.userID = true) :
    match sync ids t users [] answers store with
    | (.error _, store') => store' = store
    | (.ok _, store') =>
      ∃ grants, answers.grants = .ok grants ∧ Converged ids t users grants store store' := by
  unfold sync
  by_cases bla : t.id = "" ∨ t.orgID = ""
  · rw [if_pos bla]
  rw [if_neg bla]
  cases hl : answers.grants with
  | error e => rfl
  | ok grants =>
    have hac := provider grants hl
    simp only [expecting, foldl_nil]
    by_cases unr : answers.readFails = true
    · rw [if_pos unr]
    rw [if_neg unr]
    cases planned : plan t users (desiredRoles grants t).1 (readRoles ids store t.id) with
    | error e => rfl
    | ok request =>
      obtain ⟨writes, deletes⟩ := request
      simp only
      by_cases hno : writes = [] ∧ deletes = []
      · rw [if_pos hno]
        obtain ⟨rfl, rfl⟩ := hno
        exact ⟨grants, rfl, converged_of_applied planned (by simp) hac set⟩
      · rw [if_neg hno]
        cases answers.recorded writes deletes with
        | false => rfl
        | true =>
          by_cases fails : answers.writeFails = true
          · simp [fails]
          simp only [Bool.not_true, Bool.false_eq_true, if_false, fails]
          cases applied : writeAndDelete store writes deletes with
          | none => rfl
          | some store' =>
            exact ⟨grants, rfl, converged_of_applied planned (mem_writeAndDelete applied)
              hac (nodup_writeAndDelete set applied)⟩

def promoted : Grant := ⟨"g1", "100000000000000001", "org", "org", ["owner"], true⟩

theorem sync_converges_promoted : Converged zitadelIDPattern ⟨"acme", "org"⟩ [] [promoted]
      [roleTuple "acme" "100000000000000001" "member"]
      [roleTuple "acme" "100000000000000001" "owner"] := by
  have out := sync_converges zitadelIDPattern ⟨"acme", "org"⟩ [] { grants := .ok [promoted] }
    [roleTuple "acme" "100000000000000001" "member"] (by decide) (by
      intro grants hs g mem
      cases hs
      obtain rfl := mem_singleton.mp mem
      decide)
  have run : ∃ res, sync zitadelIDPattern ⟨"acme", "org"⟩ [] [] { grants := .ok [promoted] }
      [roleTuple "acme" "100000000000000001" "member"] =
        (.ok res, [roleTuple "acme" "100000000000000001" "owner"]) := ⟨_, rfl⟩
  obtain ⟨res, run⟩ := run
  rw [run] at out
  obtain ⟨grants, hs, con⟩ := out
  cases hs
  exact con

/-- A stored Owner whose subject is no user of the provider is neither read nor counted: a Sync
leaves a second Owner beside it. -/
theorem sync_leaves_unread_owner :
    ∃ res, sync zitadelIDPattern ⟨"acme", "org"⟩ [] [] { grants := .ok [promoted] }
      [roleTuple "acme" "zeroroot.ai/platform/e2e-runner" "owner"] =
        (.ok res, [roleTuple "acme" "zeroroot.ai/platform/e2e-runner" "owner",
          roleTuple "acme" "100000000000000001" "owner"]) := ⟨_, rfl⟩

end
end Gibson.TenantRole
