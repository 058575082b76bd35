import Gibson.Lib.Interleaving
import Gibson.Lib.Prefix
import Gibson.Banks.Reconciler
import Gibson.Platform.JobCap

/-! Whether the member that a job names still has its row. A job has no foreign key to it. -/

namespace Gibson.Banks

open List Platform Requests Loops Rows
open Interleaving (World Step System)

/-- A pass in flight: it lists the members of its bank, page by page, and then works on them. -/
inductive Call where
  | listing (r : Reconciler) (b : Bank) (listed : List Member) (token : Option (Int ×ₗ String))
  | working (listed : List Member) (p : Pass (List Failure))

def Call.request : Call → Option Request
  | .listing _ b _ token => some (.listMembers b.id token)
  | .working _ (.ask q _) => some q
  | .working _ (.done _) => none

/-- The rows that a pass under way goes by. -/
def Call.listed : Call → List Member
  | .listing _ _ listed _ | .working listed (.ask _ _) => listed
  | .working _ (.done _) => []

def afterPage (r : Reconciler) (b : Bank) (listed : List Member) :
    Except Failure (List Member × Option (Int ×ₗ String)) → Call
  | .error e => .working listed (.done [.wrap ("bank reconcile: list members of " ++ b.id) e])
  | .ok (page, some next) => .listing r b (listed ++ page) (some next)
  | .ok (page, none) => .working (listed ++ page) (r.reconcileMembers b (listed ++ page))

/-- One request of a pass. -/
def advance (t : Tables) (c : Call) (a : Answer) : Tables × Call :=
  match c with
  | .listing r b listed token =>
    let (t', reply) := perform t a (.listMembers b.id token)
    (t', afterPage r b listed reply)
  | .working listed (.ask q next) =>
    let (t', reply) := perform t a q
    (t', .working listed (next reply))
  | .working listed (.done failures) => (t, .working listed (.done failures))

/-- Passes of any configuration and over any bank, between the transactions of members, openers and
scorers. -/
def system : System Tables (Reconciler × Bank) Call Answer Txn where
  enter pass := .listing pass.1 pass.2 [] none
  advance := advance
  outside := Platform.step

def runFrom (t : Tables) (steps : List (Step (Reconciler × Bank) Answer Txn)) : World Tables Call :=
  Interleaving.run system { shared := t } steps

def Holds (t : Tables) (memberID : String) : Prop := ∃ j ∈ t.jobs, isHeld memberID j = true

/-- Every job that is not closed waits in the queue or names a member that has a row. -/
def HoldersPresent (t : Tables) : Prop :=
  ∀ j ∈ t.jobs, j.state ≠ .closed → j.memberID = "" ∨ ∃ m ∈ t.members, m.id = j.memberID

instance (t : Tables) : Decidable (HoldersPresent t) :=
  inferInstanceAs (Decidable (∀ j ∈ t.jobs, _))

lemma isHeld_iff : isHeld memberID j = true ↔ j.memberID = memberID ∧ j.state ≠ .closed := by
  simp [isHeld]

lemma holdersPresent_iff :
    HoldersPresent t ↔ ∀ id, id ≠ "" → Holds t id → ∃ m ∈ t.members, m.id = id := by
  constructor
  · rintro hpn id hn ⟨j, mem, hhe⟩
    obtain ⟨rfl, hu⟩ := isHeld_iff.mp hhe
    exact (hpn j mem hu).resolve_left hn
  · intro hpn j mem hu
    by_cases hqu : j.memberID = ""
    · exact .inl hqu
    · exact .inr (hpn j.memberID hqu ⟨j, mem, isHeld_iff.mpr ⟨rfl, hu⟩⟩)

/-- A transaction that removes no row: only `taker`, a member with a row, comes to hold a job. -/
structure Moves (t t' : Tables) (taker : Option String) : Prop where
  rows : ∀ m ∈ t.members, ∃ m' ∈ t'.members, m'.id = m.id
  holders : ∀ id, id ≠ "" → Holds t' id → Holds t id ∨ taker = some id
  present : ∀ id, taker = some id → ∃ m ∈ t.members, m.id = id

section

lemma Moves.refl (t) : Moves t t none where
  rows m mem := ⟨m, mem, rfl⟩
  holders _ _ held := .inl held
  present _ htk := by cases htk

lemma HoldersPresent.moves (hpn : HoldersPresent t)
    (moves : Moves t t' taker) : HoldersPresent t' := by
  rw [holdersPresent_iff] at hpn ⊢
  intro id hn hhe
  have hb : ∃ m ∈ t.members, m.id = id := by
    rcases moves.holders id hn hhe with hhe | taken
    · exact hpn id hn hhe
    · exact moves.present id taken
  obtain ⟨m, mem, rfl⟩ := hb
  exact moves.rows m mem

lemma Moves.of_rows (jobs : t'.jobs = t.jobs)
    (rows : ∀ m ∈ t.members, ∃ m' ∈ t'.members, m'.id = m.id) : Moves t t' none where
  rows := rows
  holders _ _ held := by
    unfold Holds at held
    rw [jobs] at held
    exact .inl held
  present _ htk := by cases htk

lemma Moves.of_jobs (mbs : t'.members = t.members)
    (jobs : ∀ id, id ≠ "" → ∀ j ∈ t'.jobs, isHeld id j = true → Holds t id ∨ taker = some id)
    (present : ∀ id, taker = some id → ∃ m ∈ t.members, m.id = id) : Moves t t' taker where
  rows m mem := ⟨m, mbs ▸ mem, rfl⟩
  holders id named := fun ⟨j, mem, hhe⟩ => jobs id named j mem hhe
  present := present

lemma moves_addMember (h : addMember t m = .ok t') : Moves t t' none := by
  obtain ⟨-, -, rfl⟩ := addMember_ok h
  exact .of_rows rfl fun m' mem => ⟨m', mem_append_left _ mem, rfl⟩

lemma moves_updateRow (p : Member → Bool) {f : Member → Member} (ids : ∀ m, (f m).id = m.id) :
    Moves t { t with members := updateFirst p f t.members } none := by
  refine .of_rows rfl fun m mem => ?_
  have hl := mem_map_of_mem (f := Member.id) mem
  rw [← map_updateFirst (p := p) (f := f) Member.id t.members fun m _ => ids m] at hl
  exact mem_map.mp hl

lemma moves_releaseMember (h : releaseMember t memberID = .ok (t', n)) : Moves t t' none := by
  rw [releaseMember_ok h]
  refine .of_jobs rfl (fun id hn j mem hhe => ?_) (fun _ htk => by cases htk)
  obtain ⟨j₀, mem₀, rfl⟩ := mem_map.mp mem
  split at hhe
  · exact absurd (isHeld_iff.mp hhe).1.symm hn
  · exact .inl ⟨j₀, mem₀, hhe⟩

lemma moves_closeJob (h : closeJob t inputID now inp = .ok (t', closed)) : Moves t t' none := by
  obtain ⟨-, jobs, mbs⟩ := closeJob_ok h
  refine .of_jobs mbs (fun id _ => ?_) (fun _ htk => by cases htk)
  rw [jobs]
  -- The row that is rewritten is closed, so it is held by nobody.
  refine forall_updateFirst (fun j mem hhe => .inl ⟨j, mem, hhe⟩) fun j _ _ hhe => ?_
  exact absurd rfl (isHeld_iff.mp hhe).2

lemma moves_openJob {id inp j} (h : openJob t id now inp = .ok (t', j)) :
    Moves t t' (if inp.memberID = "" then none else some inp.memberID) := by
  obtain ⟨slot, -, jobs, mbs⟩ := openJob_ok h
  refine .of_jobs mbs (fun mb hn j mem hhe => ?_) (fun mb htk => ?_)
  · rw [jobs] at mem
    rcases mem_append.mp mem with mem | mem
    · exact .inl ⟨j, mem, hhe⟩
    obtain rfl := mem_singleton.mp mem
    obtain ⟨hs, -⟩ := isHeld_iff.mp hhe
    have hs : inp.memberID = mb := hs
    right
    rw [hs, if_neg hn]
  · split at htk
    · cases htk
    · next hn =>
      cases htk
      obtain ⟨m, mem, hs, -⟩ := requireFreeSlot_ok (slot hn)
      exact ⟨m, mem, hs⟩

lemma moves_step (t txn) : Moves t (Platform.step t txn) (assigns t txn) := by
  unfold Platform.step
  cases hdn : commit t txn with
  | error err =>
    rw [assigns_of_error hdn]
    exact .refl t
  | ok t' =>
    cases txn with
    | addMember m => exact moves_addMember hdn
    | openJob id now inp =>
      obtain ⟨j, hop⟩ := map_fst_ok hdn
      simp only [assigns, isOk_of_ok hop, and_true, ne_eq, ite_not]
      exact moves_openJob hop
    | claim hsc ban mbid =>
      obtain ⟨htk, hcla⟩ := map_fst_ok hdn
      simp only [assigns, isOk_of_ok (claim_ok hcla).1, true_and]
      obtain ⟨slot, ⟨hem, rfl⟩ | ⟨j, -, hd, -, -, rfl⟩⟩ := claim_ok hcla
      · rw [hem]
        exact .refl _
      rw [hd]
      refine .of_jobs rfl (fun id hn => ?_) (fun id htk => ?_)
      · refine forall_updateFirst (fun j mem hhe => .inl ⟨j, mem, hhe⟩) fun j _ _ hhe => ?_
        obtain ⟨hs, -⟩ := isHeld_iff.mp hhe
        exact .inr (congrArg some hs)
      · cases htk
        obtain ⟨m, mem, hs, -⟩ := requireFreeSlot_ok slot
        exact ⟨m, mem, hs⟩
    | closeJob inp0 now inp =>
      obtain ⟨j, hcl⟩ := map_fst_ok hdn
      exact moves_closeJob hcl
    | releaseMember mbid =>
      obtain ⟨n, hrel⟩ := map_fst_ok hdn
      exact moves_releaseMember hrel
    | heartbeat mbid now sta =>
      obtain ⟨m, reported⟩ := map_fst_ok hdn
      rw [updateMemberStatus_ok reported]
      exact moves_updateRow _ fun _ => rfl

def Outcome.takesEffect : Outcome → Bool
  | .refused _ => false
  | .answered | .lost _ => true

variable {α : Type}

lemma Answer.reply_tables (a : Answer) (t) (res : Except JobError (Tables × α)) :
    (a.reply t res).1 = t ∨
      ∃ t' vl, res = .ok (t', vl) ∧ (a.reply t res).1 = t' := by
  rcases a with ⟨_ | _ | _, now, id⟩ <;> rcases res with e | ⟨t', vl⟩ <;>
    simp [Answer.reply]

lemma Answer.reply_ok (a : Answer) {res : Except JobError (Tables × α)}
    (ok : (a.reply t res).2 = .ok value) : res = .ok ((a.reply t res).1, value) := by
  rcases a with ⟨_ | _ | _, now, id⟩ <;> rcases res with e | ⟨t', v⟩ <;>
    simp_all [Answer.reply]

lemma Answer.moves_reply (a : Answer) {res : Except JobError (Tables × α)}
    (ok : ∀ t' vl, res = .ok (t', vl) → Moves t t' none) :
    Moves t (a.reply t res).1 none := by
  rcases a.reply_tables t res with hs | ⟨t', vl, hcm, hs⟩
  · rw [hs]
    exact .refl t
  · rw [hs]
    exact ok t' vl hcm

lemma map_pair_ok {x : Except JobError α} {f : α → Tables × β}
    (h : x.map f = .ok (t', value)) : ∃ y, x = .ok y ∧ f y = (t', value) := by
  cases x with
  | error e => cases h
  | ok y => exact ⟨y, rfl, Except.ok.inj h⟩

lemma moves_perform (t : Tables) (a q)
    (kp : ∀ id, q ≠ .removeMember id) : Moves t (perform t a q).1 none := by
  cases q with
  | listMembers ban tk =>
    refine a.moves_reply fun t' page hs => ?_
    cases hs
    exact .refl _
  | setMemberState mbid st =>
    refine a.moves_reply fun t' m h => ?_
    unfold setMemberState at h
    split at h <;> cases h
    exact moves_updateRow _ fun _ => rfl
  | addMember m =>
    refine a.moves_reply fun t' _ hcm => ?_
    obtain ⟨t'', add, hs⟩ := map_pair_ok hcm
    cases hs
    exact moves_addMember add
  | removeMember id => exact absurd rfl (kp id)
  | releaseMember mbid => exact a.moves_reply fun t' n => moves_releaseMember
  | unassigned ban =>
    refine a.moves_reply fun t' n hcm => ?_
    obtain ⟨n', -, hs⟩ := map_pair_ok hcm
    cases hs
    exact .refl _
  | stale ban sta lim =>
    refine a.moves_reply fun t' jobs hs => ?_
    cases hs
    exact .refl _
  | closeJob inp => exact a.moves_reply fun t' j => moves_closeJob
  | launchMember _ _ | stopMember _ | suspendMember _ | resumeMember _ | now | newMemberID =>
    exact .refl t

lemma holdersPresent_removeMember {id : String} (hpn : HoldersPresent t) (a : Answer) :
    HoldersPresent (perform t a (.removeMember id)).1 ↔
      ¬(a.outcome.takesEffect = true ∧ id ≠ "" ∧ Holds t id) := by
  constructor
  · rintro ha ⟨eff, hn, hhe⟩
    obtain ⟨m, mem, hs⟩ := holdersPresent_iff.mp hpn id hn hhe
    have hf : t.members.any (·.id == id) = true :=
      any_eq_true.mpr ⟨m, mem, by simpa using hs⟩
    have hrmv : (perform t a (.removeMember id)).1 =
        { t with members := t.members.filter (·.id != id) } := by
      simp only [perform, removeMember, hf, if_true]
      rcases a with ⟨_ | _ | _, now, id⟩
      · rfl
      · cases eff
      · rfl
    rw [hrmv] at ha
    obtain ⟨m', mem', sam'⟩ := holdersPresent_iff.mp ha id hn hhe
    have kp := (mem_filter.mp mem').2
    simp [sam'] at kp
  · intro spa
    by_cases eff : a.outcome.takesEffect = true
    · rcases a.reply_tables t ((removeMember t id).map (·, ())) with
        hs | ⟨t', value, hcm, hs⟩
      · rwa [perform, hs]
      obtain ⟨t'', hrmv, pair⟩ := map_pair_ok hcm
      cases pair
      rw [perform, hs, holdersPresent_iff]
      unfold removeMember at hrmv
      split at hrmv <;> cases hrmv
      intro id' hn hhe
      have hpt : id' ≠ id := fun hs => spa ⟨eff, hs ▸ hn, hs ▸ hhe⟩
      obtain ⟨m, mem, rfl⟩ := holdersPresent_iff.mp hpn id' hn hhe
      exact ⟨m, mem_filter.mpr ⟨mem, by simpa using hpt⟩, rfl⟩
    · rcases a with ⟨_ | _ | _, now, id⟩
      · exact absurd rfl eff
      · exact hpn
      · exact absurd rfl eff

/-- A pass removes a member that holds a job. -/
def Strands (w : World Tables Call) : Step (Reconciler × Bank) Answer Txn → Prop
  | .advance i a => ∃ c id, w.calls[i]? = some c ∧ c.request = some (.removeMember id) ∧
      a.outcome.takesEffect = true ∧ id ≠ "" ∧ Holds w.shared id
  | .start _ | .outside _ => False

lemma holdersPresent_advance (hpn : HoldersPresent t) (a) :
    HoldersPresent (advance t c a).1 ↔ ¬∃ id, c.request = some (.removeMember id) ∧
      a.outcome.takesEffect = true ∧ id ≠ "" ∧ Holds t id := by
  have tbs : (advance t c a).1 = match c.request with
      | none => t
      | some q => (perform t a q).1 := by
    rcases c with _ | ⟨_, _ | _⟩ <;> rfl
  rw [tbs]
  cases hak : c.request with
  | none => simp [hpn]
  | some q =>
    by_cases rem : ∃ id, q = .removeMember id
    · obtain ⟨id, rfl⟩ := rem
      simp [holdersPresent_removeMember hpn a]
    have kp := hpn.moves (moves_perform t a q fun id hs => rem ⟨id, hs⟩)
    refine iff_of_true kp ?_
    rintro ⟨id, hs, -⟩
    exact rem ⟨id, Option.some.inj hs⟩

lemma holdersPresent_worldStep (w : World Tables Call) (x : Step (Reconciler × Bank) Answer Txn)
    (hpn : HoldersPresent w.shared) :
    HoldersPresent (Interleaving.step system w x).shared ↔ ¬Strands w x := by
  cases x with
  | start pass => exact iff_of_true hpn id
  | outside txn => exact iff_of_true (hpn.moves (moves_step w.shared txn)) id
  | advance i a =>
    simp only [Interleaving.step, Strands]
    cases cl : w.calls[i]? with
    | none => simp [hpn]
    | some c => simpa [system] using holdersPresent_advance hpn a

end

/-- The row says that the member may go without a release of its jobs. -/
def spare (m : Member) : Bool := m.state = .suspended || m.jobsInFlight = 0

/-- A member whose row is listed as spare holds no job then, and no job is opened for or claimed by a
member while a pass that has listed it is under way. -/
def calm (w : World Tables Call) : Step (Reconciler × Bank) Answer Txn → Bool
  | .advance i _ => match w.calls[i]? with
    | some (.listing _ b _ token) => (listMembers w.shared b.id 0 token).1.all fun m =>
        !spare m || !w.shared.jobs.any (isHeld m.id)
    | _ => true
  | .outside txn => match assigns w.shared txn with
    | some id => w.calls.all fun c => c.listed.all (·.id != id)
    | none => true
  | .start _ => true

/-- A new state is recorded in the row of the member that it was asked for. -/
def Valid : (q : Request) → q.Reply → Prop
  | .setMemberState memberID _, .ok m => m.id = memberID
  | _, _ => True

/-- A pass removes a member that was listed as spare or whose jobs it has released. -/
def Grounded (listed : List Member) (past : History Request Request.Reply) : Request → Prop
  | .removeMember id => (∃ m ∈ listed, m.id = id ∧ spare m) ∨
      ∃ n, ⟨.releaseMember id, .ok n⟩ ∈ past
  | .releaseMember id => ∃ m ∈ listed, m.id = id
  | _ => True

/-- Every removal of the pass has its ground. -/
abbrev Justified {α : Type} (listed : List Member) (past : History Request Request.Reply)
    (p : Pass α) : Prop :=
  Obeys Valid (Grounded listed) (fun _ => True) past p

section Program
variable {listed : List Member} {past : History Request Request.Reply} {m : Member}

open Reconciler

lemma Grounded.cons {id : String} (h : Grounded listed past (.removeMember id)) (x) :
    Grounded listed (x :: past) (.removeMember id) :=
  h.imp_right fun ⟨n, mem⟩ => ⟨n, mem_cons_of_mem _ mem⟩

lemma grounded_of_spare (mem : m ∈ listed) (free : spare m = true) :
    Grounded listed past (.removeMember m.id) :=
  .inl ⟨m, mem, rfl, free⟩

lemma obeys_removeMember (gro : Grounded listed past (.removeMember m.id)) :
    Justified listed past (Reconciler.removeMember m) := by
  unfold Reconciler.removeMember
  split
  · exact ⟨trivial, forall_ok fun _ _ => ⟨gro.cons _, forall_ok fun _ _ => trivial⟩⟩
  · exact ⟨gro, forall_ok fun _ _ => trivial⟩

lemma obeys_recycle (mem : m ∈ listed) (free : spare m = true) (past) :
    Justified listed past (recycle m) :=
  ⟨trivial, forall_ok fun _ _ => obeys_removeMember (grounded_of_spare mem free)⟩

lemma obeys_markDead (mem : m ∈ listed) (past) : Justified listed past (markDead m) := by
  have release (past) : Justified listed past (releaseDead m) :=
    ⟨trivial, fun _ _ => ⟨⟨m, mem, rfl⟩, forall_ok fun n _ =>
      obeys_removeMember (.inr ⟨n, mem_cons_self⟩)⟩⟩
  unfold markDead
  split
  · exact release past
  · exact ⟨trivial, forall_ok fun _ _ => release _⟩

/-- What the loop over the listed members has sorted. -/
structure Sorted.Within (listed : List Member) (s : Sorted) : Prop where
  live : ∀ m ∈ s.live, m ∈ listed
  suspended : ∀ m ∈ s.suspended, m ∈ listed ∧ spare m = true

lemma obeys_visitMember (r : Reconciler) {s : Sorted} (mem : m ∈ listed)
    (hwi : Sorted.Within listed s) (past) :
    Obeys Valid (Grounded listed) (Sorted.Within listed) past (r.visitMember s m) := by
  have fails {p past} (h : Justified listed past p) :
      Obeys Valid (Grounded listed) (Sorted.Within listed) past (s.fail <$> p) :=
    obeys_bind h fun _ _ _ => ⟨hwi.live, hwi.suspended⟩
  unfold visitMember
  split
  · next suspended =>
    have free : spare m = true := by simp [spare, suspended]
    refine ⟨trivial, fun now _ => ?_⟩
    show Obeys _ _ _ _ (if _ then _ else _)
    split
    · exact fails (obeys_recycle mem free _)
    · refine ⟨hwi.live, fun x hx => ?_⟩
      rcases mem_append.mp hx with hx | hx
      · exact hwi.suspended x hx
      · rw [mem_singleton.mp hx]
        exact ⟨mem, free⟩
  · refine obeys_bind (M := fun _ => True) ?_ fun dead past _ => ?_
    · unfold isDead
      split
      · trivial
      · refine ⟨trivial, fun now _ => ?_⟩
        cases m.lastHeartbeat <;> trivial
    · split
      · exact fails (obeys_markDead mem _)
      split
      · split
        · next free => exact fails (obeys_removeMember (grounded_of_spare mem (by simp [spare, free])))
        · exact hwi
      · refine ⟨fun x hx => ?_, hwi.suspended⟩
        rcases mem_append.mp hx with hx | hx
        · exact hwi.live x hx
        · rw [mem_singleton.mp hx]
          exact mem

lemma obeys_forEach {l : List α} {bd : α → Pass (List Failure)}
    (each : ∀ x ∈ l, ∀ past, Justified listed past (bd x)) (past) :
    Justified listed past (forEach l bd) :=
  obeys_foldlM (I := fun _ => True) (fun _ x past mem _ => obeys_map (each x mem past)) trivial past

lemma mem_drainOrder {hli : List Member} (mem : m ∈ drainOrder hli) : m ∈ hli := by
  have hg (hrd : List Member) (mem : m ∈ hli.foldl insertDrainable hrd) :
      m ∈ hrd ∨ m ∈ hli := by
    clear * - mem
    induction hli generalizing hrd with
    | nil => exact .inl mem
    | cons x hli ih =>
      rcases ih _ mem with old | new
      · rcases mem_append.mp old with kept | new
        · exact .inl (IsPrefix.subset ( rdropWhile_prefix _ _) kept)
        rcases mem_cons.mp new with rfl | kept
        · exact .inr mem_cons_self
        · exact .inl ((rtakeWhile_suffix _ _).subset kept)
      · exact .inr (mem_cons_of_mem _ new)
  exact (hg [] mem).resolve_left not_mem_nil

lemma obeys_drain {hli : List Member} (hwi : ∀ m ∈ hli, m ∈ listed) (n past) :
    Justified listed past (drain hli n) := by
  refine obeys_forEach (fun m mem past => ?_) past
  have hh := hwi m (mem_drainOrder (mem_of_mem_take mem))
  refine ⟨trivial, forall_ok fun hup hs => ?_⟩
  show Obeys _ _ _ _ (if _ then _ else _)
  split
  · next free =>
    refine obeys_removeMember (m := { hup with state := .draining }) ?_
    show Grounded _ _ (.removeMember hup.id)
    rw [show hup.id = m.id from hs]
    exact grounded_of_spare hh (by simp [spare, free])
  · trivial

lemma obeys_scale {s : Sorted} (hwi : Sorted.Within listed s) (b running target past) :
    Justified listed past (scale b running target s.live s.suspended) := by
  unfold scale
  split
  · refine obeys_bind (M := fun _ => True) (obeys_forEach (fun m mem past => ?_) past)
      fun _ past _ => obeys_bind (M := fun _ => True) ?_ fun _ _ _ => trivial
    · obtain ⟨hh, free⟩ := hwi.suspended m (mem_of_mem_take mem)
      exact obeys_recycle hh free past
    · split
      · exact obeys_drain hwi.live _ past
      · trivial
  split
  · refine obeys_bind (M := fun _ => True) (obeys_forEach (fun _ _ past => ?_) past)
      fun _ _ _ => trivial
    exact ⟨trivial, fun _ _ => ⟨trivial, forall_ok fun _ _ => ⟨trivial,
      forall_except (fun _ _ => ⟨trivial, fun _ _ => trivial⟩) fun _ _ => trivial⟩⟩⟩
  · trivial

lemma obeys_suspendOrResume (r : Reconciler) (b live suspended past) :
    Justified listed past (r.suspendOrResume b live suspended) := by
  refine ⟨trivial, forall_ok fun hwt _ => ?_⟩
  show Obeys _ _ _ _ (if _ then _ else _)
  split
  · refine obeys_forEach (fun m _ past => ?_) _
    exact ⟨trivial, forall_ok fun _ _ => trivial⟩
  · refine obeys_forEach (fun m _ past => obeys_bind (M := fun _ => True) ?_ fun hil past _ => ?_) _
    · unfold idleLongEnough
      split
      · split
        · exact ⟨trivial, fun _ _ => trivial⟩
        · trivial
      · trivial
    · split
      · exact ⟨trivial, forall_ok fun _ _ => ⟨trivial, forall_ok fun _ _ => trivial⟩⟩
      · trivial

lemma obeys_closeStaleJobs (b past) : Justified listed past (closeStaleJobs b) := by
  unfold closeStaleJobs
  simp only
  split
  · trivial
  · refine ⟨trivial, forall_ok fun jobs _ => obeys_forEach (fun j _ past => ?_) _⟩
    exact ⟨trivial, forall_ok fun _ _ => trivial⟩

/-- The four ways of `ReconcileBank` to remove a member: recycling, the end of a drain, the removal
of a dead member after the release of its jobs, and a drain that finds no job in the row. -/
lemma obeys_reconcileMembers (r : Reconciler) (b : Bank) (listed past) :
    Justified listed past (r.reconcileMembers b listed) := by
  refine obeys_bind (obeys_foldlM (fun s m past mem hwi => obeys_visitMember r mem hwi past)
    ⟨forall_mem_nil _, forall_mem_nil _⟩ past) fun s past hwi => ?_
  dsimp only
  generalize int32 _ = running
  refine obeys_bind (M := fun _ => True) ?_ fun tg past _ => ?_
  · refine obeys_bind (M := fun _ => True) ?_ fun tg _ _ => by cases tg <;> trivial
    unfold targetCount
    split
    · trivial
    · exact ⟨trivial, forall_ok fun _ _ => trivial⟩
  refine obeys_bind (M := fun _ => True) (obeys_scale hwi b _ _ past) fun sca past _ => ?_
  refine obeys_bind (M := fun _ => True) (obeys_suspendOrResume r b _ _ past) fun _ past _ => ?_
  exact obeys_bind (M := fun _ => True) (obeys_closeStaleJobs b past) fun _ _ _ => trivial

end Program

section Run
variable {t : Tables} {a : Answer} {id : String}

lemma valid_perform (t : Tables) (a : Answer) (q : Request) : Valid q (perform t a q).2 := by
  cases q with
  | setMemberState mbid st =>
    have rp (res : Except JobError (Tables × Member))
        (own : ∀ t' m, res = .ok (t', m) → m.id = mbid) :
        Valid (.setMemberState mbid st) (a.reply t res).2 := by
      rcases a with ⟨_ | _ | _, now, _⟩ <;> rcases res with e | ⟨t', m⟩ <;>
        first | exact own t' m rfl | trivial
    refine rp _ fun t' m hdn => ?_
    unfold setMemberState at hdn
    split at hdn
    · cases hdn
    · next row hf =>
      cases hdn
      show row.id = mbid
      simpa using find?_some hf
  | _ => trivial

/-- No request of a pass gives a job to a member. -/
lemma holds_perform (hn : id ≠ "") (hhe : Holds (perform t a q).1 id) : Holds t id := by
  by_cases rem : ∃ id, q = .removeMember id
  · obtain ⟨id', rfl⟩ := rem
    rcases a.reply_tables t ((removeMember t id').map (·, ())) with hs | ⟨t', vl, hcm, hs⟩
    · rwa [perform, hs] at hhe
    obtain ⟨t'', hrmv, pair⟩ := map_pair_ok hcm
    cases pair
    rw [perform, hs] at hhe
    unfold removeMember at hrmv
    split at hrmv <;> cases hrmv
    exact hhe
  · exact ((moves_perform t a q fun id hs => rem ⟨id, hs⟩).holders id hn hhe).resolve_right
      nofun

lemma not_holds_of_released (hn : id ≠ "")
    (ok : (perform t a (.releaseMember id)).2 = .ok n) :
    ¬Holds (perform t a (.releaseMember id)).1 id := by
  rintro ⟨j, mem, hhe⟩
  have hrel : releaseMember t id = .ok ((perform t a (.releaseMember id)).1, n) := a.reply_ok ok
  rw [releaseMember_ok hrel] at mem
  obtain ⟨j₀, -, rfl⟩ := mem_map.mp mem
  split at hhe
  · exact hn (isHeld_iff.mp hhe).1.symm
  · next free => exact free hhe

/-- The members that a pass listed as spare or whose jobs it released hold no job. -/
def Call.Safe (t : Tables) : Call → Prop
  | .listing _ _ listed _ => ∀ m ∈ listed, spare m = true → m.id ≠ "" → ¬Holds t m.id
  | .working _ (.done _) => True
  | .working listed (.ask q next) =>
    (∀ m ∈ listed, spare m = true → m.id ≠ "" → ¬Holds t m.id) ∧
      ∃ past, Justified listed past (.ask q next) ∧
        ∀ id n, ⟨.releaseMember id, .ok n⟩ ∈ past → id ≠ "" →
          (∃ m ∈ listed, m.id = id) ∧ ¬Holds t id

lemma Call.Safe.mono {c : Call} (hsf : c.Safe t)
    (less : ∀ m ∈ c.listed, m.id ≠ "" → Holds t' m.id → Holds t m.id) : c.Safe t' := by
  match c with
  | .listing _ _ listed _ =>
    exact fun m mem free hn hhe => hsf m mem free hn (less m mem hn hhe)
  | .working _ (.done _) => trivial
  | .working listed (.ask q nx) =>
    obtain ⟨free, past, hob, hrel⟩ := hsf
    refine ⟨fun m mem spare hn hhe => free m mem spare hn (less m mem hn hhe), past, hob,
      fun id n mem hn => ?_⟩
    obtain ⟨⟨m, hh, rfl⟩, none⟩ := hrel id n mem hn
    exact ⟨⟨m, hh, rfl⟩, fun hhe => none (less m hh hn hhe)⟩

lemma Call.Safe.working {rw0 : List Member} {p : Pass (List Failure)}
    (free : ∀ m ∈ rw0, spare m = true → m.id ≠ "" → ¬Holds t m.id)
    (hob : Justified rw0 past p)
    (hrel : ∀ id n, ⟨.releaseMember id, .ok n⟩ ∈ past → id ≠ "" →
      (∃ m ∈ rw0, m.id = id) ∧ ¬Holds t id) : Call.Safe t (.working rw0 p) := by
  cases p with
  | done => trivial
  | ask q nx => exact ⟨free, past, hob, hrel⟩

lemma Call.Safe.advance {c : Call} (hsf : c.Safe t) (a : Answer)
    (page : ∀ r b listed tk, c = .listing r b listed tk →
      ∀ m ∈ (listMembers t b.id 0 tk).1, spare m = true → ¬Holds t m.id) :
    (Banks.advance t c a).2.Safe (Banks.advance t c a).1 := by
  match c with
  | .listing r b listed tk =>
    have free : ∀ m ∈ listed ++ (listMembers t b.id 0 tk).1, spare m = true → m.id ≠ "" →
        ¬Holds t m.id := by
      intro m mem spare hn
      rcases mem_append.mp mem with old | new
      · exact hsf m old spare hn
      · exact page r b listed tk rfl m new spare
    have tbs : (perform t a (.listMembers b.id tk)).1 = t := by
      rcases a with ⟨_ | _ | _, now, id⟩ <;> rfl
    have rp : (∃ e, (perform t a (.listMembers b.id tk)).2 = .error e) ∨
        (perform t a (.listMembers b.id tk)).2 = .ok (listMembers t b.id 0 tk) := by
      rcases a with ⟨_ | _ | _, now, id⟩
      · exact .inr rfl
      · exact .inl ⟨_, rfl⟩
      · exact .inl ⟨_, rfl⟩
    simp only [Banks.advance, tbs]
    rcases rp with ⟨e, is⟩ | is
    · rw [is]
      trivial
    · rw [is]
      generalize listMembers t b.id 0 tk = an at free
      rcases an with ⟨rw0, _ | next⟩
      · exact .working free (obeys_reconcileMembers r b _ []) fun id n mem => absurd mem not_mem_nil
      · exact free
  | .working listed (.done failures) => trivial
  | .working listed (.ask q next) =>
    obtain ⟨free, past, hob, hrel⟩ := hsf
    refine .working (fun m mem spare hn hhe => free m mem spare hn (holds_perform hn hhe))
      (hob.2 _ (valid_perform t a q)) fun id n mem hn => ?_
    rcases mem_cons.mp mem with now | old
    · obtain ⟨rfl, hs⟩ := Sigma.mk.inj now
      exact ⟨hob.1, not_holds_of_released hn (eq_of_heq hs).symm⟩
    · obtain ⟨hh, none⟩ := hrel id n old hn
      exact ⟨hh, fun hhe => none (holds_perform hn hhe)⟩

/-- A safe pass strands no job. -/
lemma Call.Safe.not_strands {c : Call} (hsf : c.Safe t) (hn : id ≠ "")
    (hax : c.request = some (.removeMember id)) : ¬Holds t id := by
  match c with
  | .listing .. => cases hax
  | .working _ (.done _) => cases hax
  | .working listed (.ask q nx) =>
    cases hax
    obtain ⟨free, past, hob, hrel⟩ := hsf
    rcases hob.1 with ⟨m, mem, rfl, spare⟩ | ⟨n, mem⟩
    · exact free m mem spare hn
    · exact (hrel id n mem hn).2

lemma safe_step {w : World Tables Call} (hsf : ∀ c ∈ w.calls, c.Safe w.shared)
    (hq : calm w x = true) :
    ∀ c ∈ (Interleaving.step system w x).calls, c.Safe (Interleaving.step system w x).shared := by
  cases x with
  | start pass =>
    intro c mem
    rcases mem_append.mp mem with old | new
    · exact hsf c old
    · rw [mem_singleton.mp new]
      exact fun m mem => absurd mem not_mem_nil
  | outside txn =>
    intro c mem
    refine (hsf c mem).mono fun m hh hn hhe => ?_
    refine ((moves_step w.shared txn).holders m.id hn hhe).resolve_right fun htk => ?_
    simp only [calm, htk, all_eq_true, bne_iff_ne] at hq
    exact hq c mem m hh rfl
  | advance i a =>
    cases cl : w.calls[i]? with
    | none =>
      rw [Interleaving.step_advance_none cl]
      exact hsf
    | some c =>
      rw [Interleaving.step_advance_some cl]
      have own := (hsf c (mem_of_getElem? cl)).advance a (by
        rintro r b listed tk rfl m mem spare ⟨j, hhe⟩
        simp only [calm, cl, all_eq_true, Bool.or_eq_true, Bool.not_eq_true', any_eq_false] at hq
        rcases hq m mem with hbus | none
        · cases spare.symm.trans hbus
        · exact none j hhe.1 hhe.2)
      intro c' mem
      rcases mem_or_eq_of_mem_set mem with old | rfl
      · refine (hsf c' old).mono fun m _ hn hhe => ?_
        revert hhe
        simp only [system, Banks.advance]
        rcases c with _ | ⟨_, _ | _⟩
        · exact holds_perform hn
        · exact id
        · exact holds_perform hn
      · exact own

end Run

/-- No job is ever held by a removed member in a run whose listings and claims are calm. -/
theorem noRemovedHolder (members : List Member) (inputs : List JobInput) (events : List JobEvent)
    (steps : List (Step (Reconciler × Bank) Answer Txn))
    (quiet : ∀ before x after, steps = before ++ x :: after →
      calm (runFrom { members, inputs, events } before) x = true) :
    ∀ before after, steps = before ++ after →
      HoldersPresent (runFrom { members, inputs, events } before).shared := by
  have both : ∀ before after, steps = before ++ after →
      HoldersPresent (runFrom { members, inputs, events } before).shared ∧
        ∀ c ∈ (runFrom { members, inputs, events } before).calls,
          c.Safe (runFrom { members, inputs, events } before).shared := by
    refine Prefix.induction ⟨by simp [runFrom, Interleaving.run, HoldersPresent],
      by simp [runFrom, Interleaving.run]⟩ fun before x after split ⟨present, safe⟩ => ?_
    rw [runFrom, Interleaving.run_append_singleton, ← runFrom]
    refine ⟨(holdersPresent_worldStep _ x present).mpr ?_, safe_step safe (quiet before x after split)⟩
    cases x with
    | start | outside => exact id
    | advance i a =>
      rintro ⟨c, id, call, asks, -, named, held⟩
      exact (safe c (mem_of_getElem? call)).not_strands named asks held
  exact fun before after split => (both before after split).1

def tenantBank (desiredCount : Int) : Bank where
  id := "b"
  desiredCount := desiredCount
  loginShape := .apiKey
  maxJobsInFlight := 1
  staleLimit := 0
  spillPolicy := .queue

/-- A pass launches a member, which reports and claims a job. -/
def launchedAndClaimed : List (Step (Reconciler × Bank) Answer Txn) :=
  .start (.new {}, tenantBank 1) ::
    List.replicate 5 (.advance 0 { now := 0, id := "m" }) ++
  [.outside (.heartbeat "m" 1 { state := .idle, jobsInFlight := 0, jobCap := 1 }),
   .outside (.openJob "j" 2 { bankID := "b", spec := "", openedBy := {} }),
   .outside (.claim (fun _ => false) "b" "m")]

/-- A pass that wants no member drains it. -/
def drained : List (Step (Reconciler × Bank) Answer Txn) :=
  .start (.new {}, tenantBank 0) :: List.replicate 5 (.advance 1 { now := 3 })

/-- The job is closed before the pass that removes the member. -/
def closedThenDrained : List (Step (Reconciler × Bank) Answer Txn) :=
  launchedAndClaimed ++ .outside (.closeJob "i" 3
    { jobID := "j", verdict := .abandoned, score := ⟨0⟩, closer := {} }) :: drained

theorem noRemovedHolder_closedThenDrained :
    (runFrom {} (launchedAndClaimed)).shared.members.map (·.id) = ["m"] ∧
      (runFrom {} closedThenDrained).shared.members = [] ∧
      HoldersPresent (runFrom {} closedThenDrained).shared :=
  ⟨by decide, by decide, noRemovedHolder [] [] [] closedThenDrained
    (Prefix.forall_split (by decide)) closedThenDrained [] (by simp)⟩

/-- The member is drained while its row still counts no job, and the job that it claimed is left with
a member that has no row. -/
theorem noRemovedHolder_claimedThenDrained :
    ¬HoldersPresent (runFrom {} (launchedAndClaimed ++ drained)).shared := by
  decide

end Gibson.Banks
