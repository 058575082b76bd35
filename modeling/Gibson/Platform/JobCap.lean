import Mathlib.Data.List.Induction
import Gibson.Lib.Loops
import Gibson.Platform.JobStore

/-! The cap on the jobs of a member. Only the heartbeats of the member write its counter. -/

namespace Gibson.Platform

open List Rows Loops Nat Function

/-- A transaction, with the ids and times that its call drew. -/
inductive Txn where
  | addMember (m : Member)
  | openJob (id : String) (now : Int) (inp : OpenInput)
  | claim (skipped : String → Bool) (bankID memberID : String)
  | closeJob (inputID : String) (now : Int) (inp : CloseInput)
  | releaseMember (memberID : String)
  | heartbeat (memberID : String) (now : Int) (status : MemberStatus)

def commit (t : Tables) : Txn → Except JobError Tables
  | .addMember m => addMember t m
  | .openJob id now inp => (openJob t id now inp).map Prod.fst
  | .claim skipped bankID memberID => (claim t skipped bankID memberID).map Prod.fst
  | .closeJob inputID now inp => (closeJob t inputID now inp).map Prod.fst
  | .releaseMember memberID => (releaseMember t memberID).map Prod.fst
  | .heartbeat memberID now status => (updateMemberStatus t memberID status now).map Prod.fst

def step (t : Tables) (txn : Txn) : Tables :=
  match commit t txn with
  | .ok t' => t'
  | .error _ => t

def run (t : Tables) (txns : List Txn) : Tables := txns.foldl step t

lemma run_append_singleton (t txns txn) : run t (txns ++ [txn]) = step (run t txns) txn := by
  simp [run]

def held (t : Tables) (memberID : String) : Nat := t.jobs.countP (isHeld memberID)

def Capped (t : Tables) : Prop := ∀ m ∈ t.members, held t m.id ≤ m.jobCap

instance (t : Tables) : Decidable (Capped t) :=
  inferInstanceAs (Decidable (∀ m ∈ t.members, held t m.id ≤ m.jobCap))

/-- A member starts with its cap, or with none until it reports, and reports no more jobs than it
holds and its cap. -/
def Truthful (cap : String → Nat) (t : Tables) : Txn → Prop
  | .addMember m => m.jobCap ≤ cap m.id
  | .heartbeat memberID _ status =>
    status.jobsInFlight ≤ held t memberID ∧ status.jobCap = cap memberID
  | _ => True

instance (cap : String → Nat) (t : Tables) : (txn : Txn) → Decidable (Truthful cap t txn)
  | .addMember _ => decLe _ _
  | .heartbeat _ _ _ => instDecidableAnd
  | .openJob _ _ _ | .claim _ _ _ | .closeJob _ _ _ | .releaseMember _ => instDecidableTrue

/-- The job that a transaction gives to a member: a new one, or the head of the queue. -/
def assigns (t : Tables) : Txn → Option String
  | .openJob id now inp =>
    if inp.memberID ≠ "" ∧ (openJob t id now inp).isOk then some inp.memberID else none
  | .claim skipped bankID memberID =>
    if (requireFreeSlot t memberID).isOk ∧ (queueHead t skipped bankID).isSome then some memberID
    else none
  | _ => none

/-- The counter of a member says that it has a free slot, and it has none. -/
def Lags (t : Tables) (memberID : String) : Prop :=
  ∃ m ∈ t.members, m.id = memberID ∧ m.jobsInFlight < m.jobCap ∧ m.jobCap ≤ held t memberID

instance (t : Tables) (memberID : String) : Decidable (Lags t memberID) :=
  inferInstanceAs (Decidable (∃ m ∈ t.members, m.id = memberID ∧ m.jobsInFlight < m.jobCap ∧
    m.jobCap ≤ held t memberID))

/-- The invariant of the tables. -/
structure Inv (cap : String → Nat) (t : Tables) : Prop where
  jobIDs : (t.jobs.map Job.id).Nodup
  memberIDs : (t.members.map Member.id).Nodup
  named : ∀ m ∈ t.members, m.id ≠ ""
  known : ∀ j ∈ t.jobs, j.memberID = "" ∨ ∃ m ∈ t.members, m.id = j.memberID
  bounded : ∀ m ∈ t.members, m.jobCap ≤ cap m.id

section
variable {t t' : Tables}

lemma requireFreeSlot_ok (h : requireFreeSlot t memberID = .ok ()) :
    ∃ m ∈ t.members, m.id = memberID ∧ m.jobsInFlight < m.jobCap := by
  obtain ⟨free, rd, ok⟩ := bind_ok_iff.mp h
  unfold memberHasFreeSlot at rd
  split at rd
  · cases rd
  next m hf =>
  cases rd
  refine ⟨m, mem_of_find?_eq_some hf, by simpa using List.find?_some hf, ?_⟩
  by_contra full
  simp [full] at ok

variable {id : String}

lemma openJob_ok (h : openJob t id now inp = .ok (t', j)) :
    (inp.memberID ≠ "" → requireFreeSlot t inp.memberID = .ok ()) ∧
      t.jobs.find? (·.id == id) = none ∧ t'.jobs = t.jobs ++ [inp.newJob id now] ∧
      t'.members = t.members := by
  obtain ⟨_, pin, h⟩ := bind_ok_iff.mp h
  obtain ⟨hins, insert, h⟩ := bind_ok_iff.mp h
  unfold insertJob at insert
  split at insert
  · cases insert
  next free =>
  cases insert
  cases h
  refine ⟨fun hn => ?_, ?_, rfl, rfl⟩
  · rwa [requirePinnedSlot, if_neg hn] at pin
  · simpa [OpenInput.newJob] using free

lemma claim_ok {hsc : String → Bool} (h : claim t hsc bankID memberID = .ok (t', taken)) :
    requireFreeSlot t memberID = .ok () ∧ ((queueHead t hsc bankID = none ∧ t' = t) ∨
        ∃ j ∈ t.jobs, queueHead t hsc bankID = some j ∧ j.memberID = "" ∧ j.state ≠ .closed ∧
          t' = { t with jobs := updateFirst (·.id == j.id) (Job.assign memberID) t.jobs }) := by
  obtain ⟨_, slot, h⟩ := bind_ok_iff.mp h
  refine ⟨slot, ?_⟩
  split at h
  · next hem =>
    cases h
    exact .inl ⟨hem, rfl⟩
  · next j hd =>
    cases h
    have mem :=
      mem_sortBy.mp (mem_of_mem_head? (Option.mem_def.mpr hd))
    obtain ⟨mem, hqu⟩ := mem_filter.mp mem
    simp only [isQueued, Bool.and_eq_true, beq_iff_eq, bne_iff_ne] at hqu
    exact .inr ⟨j, mem, hd, hqu.1.1.2, hqu.1.2, rfl⟩

/-- What a transaction does to holders. -/
structure Effect (cap : String → Nat) (t t' : Tables) (taker : Option String) : Prop where
  inv : Inv cap t'
  others : ∀ id, id ≠ "" → taker ≠ some id → held t' id ≤ held t id
  caps : ∀ m' ∈ t'.members,
    (∃ m ∈ t.members, m.id = m'.id ∧ m.jobCap ≤ m'.jobCap) ∨ held t' m'.id = 0
  given : ∀ id, taker = some id → held t' id = held t id + 1 ∧ t'.members = t.members ∧
    ∃ m ∈ t.members, m.id = id ∧ m.jobsInFlight < m.jobCap

variable {cap : String → Nat}

lemma Effect.refl (inv : Inv cap t) : Effect cap t t none where
  inv := inv
  others _ _ _ := le_refl _
  caps m mem := .inl ⟨m, mem, rfl, le_refl _⟩
  given _ hn := by cases hn

lemma Effect.of_jobs (inv : Inv cap t) (mbs : t'.members = t.members)
    (ids : t'.jobs.map Job.id = t.jobs.map Job.id)
    (known : ∀ j ∈ t'.jobs, j.memberID = "" ∨ ∃ j₀ ∈ t.jobs, j₀.memberID = j.memberID)
    (few : ∀ id, id ≠ "" → held t' id ≤ held t id) : Effect cap t t' none where
  inv :=
    { jobIDs := ids ▸ inv.jobIDs
      memberIDs := mbs ▸ inv.memberIDs
      named := mbs ▸ inv.named
      known := fun j mem => by
        rw [mbs]
        rcases known j mem with hem | ⟨j₀, mem₀, hs⟩
        · exact .inl hem
        · exact hs ▸ inv.known j₀ mem₀
      bounded := mbs ▸ inv.bounded }
  others id named _ := few id named
  caps m mem := .inl ⟨m, mbs ▸ mem, rfl, le_refl _⟩
  given _ named := by cases named

lemma effect_addMember (inv : Inv cap t) (hbd : m.jobCap ≤ cap m.id)
    (h : addMember t m = .ok t') : Effect cap t t' none := by
  obtain ⟨named, hab, rfl⟩ := addMember_ok h
  -- No job names a member that was not there.
  have none : held { t with members := t.members ++ [m] } m.id = 0 := by
    refine countP_eq_zero.mpr fun j mem => ?_
    rcases inv.known j mem with hem | ⟨m', mem', hs⟩
    · simp [isHeld, hem, Ne.symm named]
    have ho := List.find?_eq_none.mp hab m' mem'
    simp [isHeld, ← hs, ho]
  refine
    { inv :=
        { jobIDs := inv.jobIDs
          memberIDs := nodup_map_append_of_find? inv.memberIDs hab
          named := ?_
          known := fun j mem => (inv.known j mem).imp_right fun ⟨m', mem', hs⟩ =>
            ⟨m', mem_append_left _ mem', hs⟩
          bounded := ?_ }
      others := fun _ _ _ => le_refl _
      caps := ?_
      given := fun _ named => by cases named }
  · intro m' mem'
    rcases mem_append.mp mem' with mem' | mem'
    · exact inv.named m' mem'
    · obtain rfl := mem_singleton.mp mem'
      exact named
  · intro m' mem'
    rcases mem_append.mp mem' with mem' | mem'
    · exact inv.bounded m' mem'
    · obtain rfl := mem_singleton.mp mem'
      exact hbd
  · intro m' mem'
    rcases mem_append.mp mem' with mem' | mem'
    · exact .inl ⟨m', mem', rfl, le_refl _⟩
    · obtain rfl := mem_singleton.mp mem'
      exact .inr none

lemma effect_heartbeat (inv : Inv cap t) (con : status.jobCap = cap memberID)
    (h : updateMemberStatus t memberID status now = .ok (t', m)) : Effect cap t t' none := by
  obtain rfl := updateMemberStatus_ok h
  have ids : (updateFirst (·.id == memberID) (Member.report status now) t.members).map
      Member.id = t.members.map Member.id :=
    map_updateFirst Member.id t.members fun _ _ => rfl
  rw [updateFirst_eq_map inv.memberIDs] at ids ⊢
  -- A heartbeat keeps the id of each row, and no cap goes down.
  have row (m : Member) (mem : m ∈ t.members) :
      (if m.id == memberID then m.report status now else m).id = m.id ∧
        m.jobCap ≤ (if m.id == memberID then m.report status now else m).jobCap ∧
        (if m.id == memberID then m.report status now else m).jobCap ≤ cap m.id := by
    have hbd := inv.bounded m mem
    split
    · next hs =>
      rw [beq_iff_eq] at hs
      refine ⟨rfl, ?_, ?_⟩
      · show m.jobCap ≤ status.jobCap
        rwa [con, ← hs]
      · show status.jobCap ≤ cap m.id
        rw [con, ← hs]
    · exact ⟨rfl, le_refl _, hbd⟩
  exact
    { inv :=
        { jobIDs := inv.jobIDs
          memberIDs := ids ▸ inv.memberIDs
          named := forall_mem_map.mpr fun m mem => by
            rw [(row m mem).1]
            exact inv.named m mem
          known := fun j mem => (inv.known j mem).imp_right fun ⟨m, mem, hs⟩ =>
            ⟨_, mem_map_of_mem mem, (row m mem).1.trans hs⟩
          bounded := forall_mem_map.mpr fun m mem => by
            rw [(row m mem).1]
            exact (row m mem).2.2 }
      others := fun _ _ _ => le_refl _
      caps := forall_mem_map.mpr fun m mem =>
        .inl ⟨m, mem, (row m mem).1.symm, (row m mem).2.1⟩
      given := fun _ named => by cases named }

lemma countP_updateFirst (jobs) (ids : (jobs.map Job.id).Nodup) (mem : j ∈ jobs)
    (f : Job → Job) (id) :
    (updateFirst (·.id == j.id) f jobs).countP (isHeld id) + (if isHeld id j then 1 else 0) =
      jobs.countP (isHeld id) + if isHeld id (f j) then 1 else 0 := by
  obtain ⟨rs, hb, ha⟩ := updateFirst_perm f ((find?_key_iff ids).mpr ⟨mem, rfl⟩)
  rw [hb.countP_eq, ha.countP_eq, countP_cons, countP_cons]
  omega

section
variable (inv : Inv cap t)
include inv

lemma effect_closeJob
    (h : closeJob t inputID now inp = .ok (t', closed)) : Effect cap t t' none := by
  obtain ⟨⟨j, hf⟩, jobs, mbs⟩ := closeJob_ok h
  obtain ⟨mem, id⟩ := (find?_key_iff inv.jobIDs).mp hf
  refine .of_jobs inv mbs ?_ (fun j mem => .inr ?_) fun mb _ => ?_
  · rw [jobs]
    exact map_updateFirst Job.id t.jobs fun _ _ => rfl
  · rw [jobs] at mem
    have hl := mem_map_of_mem (f := Job.memberID) mem
    rw [map_updateFirst (f := Job.close inp now) Job.memberID t.jobs fun _ _ => rfl] at hl
    exact mem_map.mp hl
  have ct := countP_updateFirst t.jobs inv.jobIDs mem (Job.close inp now) mb
  have hed : isHeld mb (j.close inp now) = false := by simp [isHeld, Job.close]
  rw [id, hed, ← jobs] at ct
  simp only [Bool.false_eq_true, if_false] at ct
  unfold held
  omega

lemma effect_releaseMember (h : releaseMember t memberID = .ok (t', n)) : Effect cap t t' none := by
  obtain rfl := releaseMember_ok h
  refine .of_jobs inv rfl ?_ ?_ ?_
  · rw [map_map]
    refine map_congr_left fun j _ => ?_
    simp only [comp_apply]
    split <;> rfl
  · intro j mem
    obtain ⟨j₀, mem₀, rfl⟩ := mem_map.mp mem
    split
    · exact .inl rfl
    · exact .inr ⟨j₀, mem₀, rfl⟩
  · intro mb hn
    unfold held
    rw [countP_map]
    refine countP_mono_left fun j _ hct => ?_
    simp only [comp_apply] at hct
    split at hct
    · simp [isHeld, Ne.symm hn] at hct
    · exact hct

lemma effect_given (inv' : Inv cap t') (mbs : t'.members = t.members)
    (ct : ∀ id, id ≠ "" → held t' id = held t id + if id = taker then 1 else 0)
    (slot : ∃ m ∈ t.members, m.id = taker ∧ m.jobsInFlight < m.jobCap) :
    Effect cap t t' (some taker) where
  inv := inv'
  others id hn other := by
    have hpt : id ≠ taker := fun hs => other (hs ▸ rfl)
    rw [ct id hn, if_neg hpt]
    omega
  caps m mem := .inl ⟨m, mbs ▸ mem, rfl, le_refl _⟩
  given id hs := by
    cases hs
    have hn : taker ≠ "" := by
      obtain ⟨m, mem, rfl, -⟩ := slot
      exact inv.named m mem
    exact ⟨by rw [ct taker hn, if_pos rfl], mbs, slot⟩

lemma effect_openJob {id now inp j} (h : openJob t id now inp = .ok (t', j)) :
    Effect cap t t' (if inp.memberID = "" then none else some inp.memberID) := by
  obtain ⟨slot, free, jobs, mbs⟩ := openJob_ok h
  have ids : (t'.jobs.map Job.id).Nodup := by
    rw [jobs]
    exact nodup_map_append_of_find? inv.jobIDs free
  have ct (mb : String) :
      held t' mb = held t mb + if inp.memberID == mb then 1 else 0 := by
    unfold held
    rw [jobs, countP_append, countP_singleton]
    simp [isHeld, OpenInput.newJob]
  have inv' (hk : inp.memberID = "" ∨ ∃ m ∈ t.members, m.id = inp.memberID) : Inv cap t' := by
    refine ⟨ids, mbs ▸ inv.memberIDs, mbs ▸ inv.named, ?_, mbs ▸ inv.bounded⟩
    rw [mbs, jobs]
    exact forall_mem_append.mpr ⟨inv.known, forall_mem_singleton.mpr hk⟩
  split
  · next hqu =>
    refine
      { inv := inv' (.inl hqu)
        others := fun mb hn _ => ?_
        caps := fun m mem => .inl ⟨m, mbs ▸ mem, rfl, le_refl _⟩
        given := fun _ hn => by cases hn }
    rw [ct mb, hqu, if_neg (by simpa using Ne.symm hn)]
    omega
  · next hn =>
    obtain ⟨m, mem, hs, hbe⟩ := requireFreeSlot_ok (slot hn)
    refine effect_given inv (inv' (.inr ⟨m, mem, hs⟩)) mbs (fun mb _ => ?_)
      ⟨m, mem, hs, hbe⟩
    rw [ct mb]
    simp only [beq_iff_eq, @eq_comm _ mb]

lemma effect_claim {hsc : String → Bool}
    (h : claim t hsc bankID memberID = .ok (t', taken)) :
    Effect cap t t' (if (queueHead t hsc bankID).isSome then some memberID else none) := by
  obtain ⟨slot, ⟨hem, rfl⟩ | ⟨j, mem, hd, hqu, hop, rfl⟩⟩ := claim_ok h
  · rw [hem]
    exact Effect.refl inv
  rw [hd]
  obtain ⟨m, hpn, hs, hbe⟩ := requireFreeSlot_ok slot
  refine effect_given inv ?_ rfl (fun mb hn => ?_) ⟨m, hpn, hs, hbe⟩
  · refine ⟨?_, inv.memberIDs, inv.named, ?_, inv.bounded⟩
    · show ((updateFirst _ _ t.jobs).map Job.id).Nodup
      rw [map_updateFirst (f := Job.assign memberID) Job.id t.jobs fun _ _ => rfl]
      exact inv.jobIDs
    · exact forall_updateFirst inv.known fun _ _ _ => .inr ⟨m, hpn, hs⟩
  · have ct := countP_updateFirst t.jobs inv.jobIDs mem (Job.assign memberID) mb
    have hb : isHeld mb j = false := by simp [isHeld, hqu, Ne.symm hn]
    have ha : isHeld mb (j.assign memberID) = (memberID == mb) := by
      simp [isHeld, Job.assign, hop]
    rw [hb, ha] at ct
    simpa [held, @eq_comm _ mb] using ct

end

lemma map_fst_ok {x : Except ε (α × β)} (h : x.map Prod.fst = .ok a) : ∃ b, x = .ok (a, b) := by
  cases x with
  | error err => cases h
  | ok pair => exact ⟨pair.2, congrArg Except.ok (Prod.ext (Except.ok.inj h) rfl)⟩

lemma isOk_of_ok {x : Except ε α} (h : x = .ok a) : x.isOk = true := by
  rw [h]
  rfl

variable {txn : Txn}

lemma effect_commit (inv : Inv cap t) (tru : Truthful cap t txn) (h : commit t txn = .ok t') :
    Effect cap t t' (assigns t txn) := by
  cases txn with
  | addMember m => exact effect_addMember inv tru h
  | openJob id now inp =>
    obtain ⟨j, hop⟩ := map_fst_ok h
    have eff := effect_openJob inv hop
    simp only [assigns, isOk_of_ok hop, and_true, ne_eq, ite_not]
    exact eff
  | claim hsc ban mbid =>
    obtain ⟨htk, hcla⟩ := map_fst_ok h
    have eff := effect_claim inv hcla
    simp only [assigns, isOk_of_ok (claim_ok hcla).1, true_and]
    exact eff
  | closeJob inp0 now inp =>
    obtain ⟨j, hcl⟩ := map_fst_ok h
    exact effect_closeJob inv hcl
  | releaseMember mbid =>
    obtain ⟨n, hrel⟩ := map_fst_ok h
    exact effect_releaseMember inv hrel
  | heartbeat mbid now sta =>
    obtain ⟨m, reported⟩ := map_fst_ok h
    exact effect_heartbeat inv tru.2 reported

lemma assigns_of_error (h : commit t txn = .error err) : assigns t txn = none := by
  cases txn with
  | openJob id now inp =>
    have hfa : (openJob t id now inp).isOk = false := by
      simp only [commit] at h
      cases hop : openJob t id now inp with
      | error err => rfl
      | ok pair => simp [hop, Except.map] at h
    simp [assigns, hfa]
  | claim hsc ban mbid =>
    simp only [commit] at h
    cases slot : requireFreeSlot t mbid with
    | error err => simp [assigns, slot, Except.isOk, Except.toBool]
    | ok u =>
      simp only [claim, slot, bind, Except.bind] at h
      split at h <;> cases h
  | _ => rfl

lemma effect_step (inv : Inv cap t) (tru : Truthful cap t txn) :
    Effect cap t (step t txn) (assigns t txn) := by
  unfold step
  cases hdn : commit t txn with
  | ok t' => exact effect_commit inv tru hdn
  | error err =>
    rw [assigns_of_error hdn]
    exact Effect.refl inv

lemma capped_step (inv : Inv cap t) (tru : Truthful cap t txn) (hcap : Capped t)
    (cur : ∀ id ∈ assigns t txn, ¬ Lags t id) : Capped (step t txn) := by
  have eff := effect_step inv tru
  intro m' mem'
  rcases eff.caps m' mem' with ⟨m, mem, hs, hg⟩ | none
  · have hb := hcap m mem
    rw [hs] at hb
    by_cases tak : assigns t txn = some m'.id
    · obtain ⟨ct, -, x, memx, sam, hbe⟩ := eff.given m'.id tak
      have only : x = m := inj_on_of_nodup_map inv.memberIDs memx mem (sam.trans hs.symm)
      subst only
      have free : ¬ x.jobCap ≤ held t m'.id :=
        fun hfu => cur m'.id tak ⟨x, memx, sam, hbe, hfu⟩
      omega
    · have few := eff.others m'.id (eff.inv.named m' mem') tak
      omega
  · rw [none]
    exact zero_le _

/-- The transactions of a run, each with the tables it finds. -/
def StepOf (txns pre : List Txn) (txn : Txn) : Prop := pre ++ [txn] <+: txns

def TruthfulRun (cap : String → Nat) (txns : List Txn) : Prop :=
  ∀ pre txn, StepOf txns pre txn → Truthful cap (run {} pre) txn

lemma inv_run (tru : TruthfulRun cap txns) : Inv cap (run {} txns) := by
  induction txns using reverseRecOn with
  | nil => exact (⟨nodup_nil, nodup_nil, by simp, by simp, by simp⟩ : Inv cap {})
  | append_singleton txns txn ih =>
    rw [run_append_singleton]
    refine (effect_step (ih fun pre x cut => ?_) ?_).inv
    · exact tru pre x (cut.trans (prefix_append _ _))
    · exact tru txns txn (prefix_refl _)

/-- A run of truthful members stays within every cap exactly if no Open and no Claim gives a job to
a member while its counter lags. -/
theorem memberCap_iff (cap : String → Nat) (txns : List Txn) (truth : TruthfulRun cap txns) :
    (∀ pre, pre <+: txns → Capped (run {} pre)) ↔ ∀ pre txn, StepOf txns pre txn →
        ∀ id ∈ assigns (run {} pre) txn, ¬ Lags (run {} pre) id := by
  have hrc {pre} (cut : pre <+: txns) : Inv cap (run {} pre) :=
    inv_run fun pre' txn cut' => truth pre' txn (cut'.trans cut)
  constructor
  · intro hcap pre txn cut id tak lags
    obtain ⟨ct, mbs, -⟩ := (effect_step (hrc ((prefix_append _ _).trans cut))
      (truth pre txn cut)).given id tak
    obtain ⟨m, mem, rfl, -, hfu⟩ := lags
    have hexc := hcap _ cut
    rw [run_append_singleton] at hexc
    have := hexc m (mbs ▸ mem)
    omega
  · intro cur pre
    induction pre using List.reverseRecOn with
    | nil =>
      intro _ m mem
      simp [run] at mem
    | append_singleton pre txn ih =>
      intro cut
      have hea := (prefix_append pre [txn]).trans cut
      rw [run_append_singleton]
      exact capped_step (hrc hea) (truth pre txn cut) (ih hea) (cur pre txn cut)

end

lemma forall_stepOf_iff {P : List Txn → Txn → Prop} :
    (∀ pre txn, StepOf txns pre txn → P pre txn) ↔
      ∀ k : Fin txns.length, P (txns.take k) (txns.get k) := by
  constructor
  · intro all k
    refine all _ _ ?_
    unfold StepOf
    rw [get_eq_getElem, take_append_getElem]
    exact take_prefix _ _
  · rintro all pre txn ⟨post, rfl⟩
    have pl := all ⟨pre.length, by simp⟩
    simpa using pl

def idleMember : List Txn :=
  [.addMember { id := "m", bankID := "b", state := .launching },
   .heartbeat "m" 0 { state := .idle, jobsInFlight := 0, jobCap := 1 }]

def openOnMember (id : String) : Txn :=
  .openJob id 0 { bankID := "b", memberID := "m", spec := "", openedBy := {} }

def reportedOpens : List Txn :=
  idleMember ++ [openOnMember "j1",
    .heartbeat "m" 1 { state := .busy, jobsInFlight := 1, jobCap := 1 }, openOnMember "j2"]

/-- With the counter up to date, the second Open fails. -/
theorem memberCap_reported : TruthfulRun (fun _ => 1) reportedOpens ∧
      ∀ pre, pre <+: reportedOpens → Capped (run {} pre) := by
  have tru : TruthfulRun (fun _ => 1) reportedOpens := forall_stepOf_iff.mpr (by decide)
  exact ⟨tru, (memberCap_iff (fun _ => 1) _ tru).mpr (forall_stepOf_iff.mpr (by decide))⟩

/-- Two Opens between two heartbeats both take the last slot of the member. -/
theorem memberCap_exceeded :
    TruthfulRun (fun _ => 1) (idleMember ++ [openOnMember "j1", openOnMember "j2"]) ∧
      ¬ Capped (run {} (idleMember ++ [openOnMember "j1", openOnMember "j2"])) :=
  ⟨forall_stepOf_iff.mpr (by decide), by decide⟩

end Gibson.Platform
