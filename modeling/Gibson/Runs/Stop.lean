import Gibson.Runs.Manager

/-! Stop against the executor of the same run, which projects and starts the run without a look at
the cancellation. -/

namespace Gibson.Runs

open List Brain Requests Interleaving Calls

section
variable {id r : String}

def Fresh (id r : String) (events : List Event) : Prop := ∀ ev ∈ events, ¬Launches id r ev

variable {events : List Event}

lemma Fresh.launchedOnce (fresh : Fresh id r events) : LaunchedOnce id r events := by
  rintro hb ev ha rfl lau
  exact absurd lau (fresh ev (by simp))

lemma Fresh.append (fresh : Fresh id r events) (add : Fresh id r more) :
    Fresh id r (events ++ more) := by
  intro ev mem
  obtain mem | mem := mem_append.mp mem
  · exact fresh ev mem
  · exact add ev mem

lemma LaunchedOnce.append (once : LaunchedOnce id r events)
    (added : Fresh id r more) : LaunchedOnce id r (events ++ more) := by
  induction more using reverseRecOn with
  | nil => rwa [append_nil]
  | append_singleton more hlt ih =>
    intro hb ev ha split lau
    rw [← append_assoc] at split
    obtain ⟨-, rfl, -⟩ | ⟨rs, -, hea⟩ := Prefix.split_concat split
    · exact absurd lau (added ev (by simp))
    · exact ih (fun x mem => added x (by simp [mem])) hb ev rs hea lau

lemma Fresh.project (fresh : Fresh id r events) (e) :
    LaunchedOnce id r (events ++ [.missionProjected e]) := by
  intro hb ev ha split lau
  obtain ⟨rfl, rfl, -⟩ | ⟨rs, -, rfl⟩ := Prefix.split_concat split
  · exact .inl ⟨⟨e, rfl⟩, fresh⟩
  · exact absurd lau (fresh ev (by simp))

lemma LaunchedOnce.start (once : LaunchedOnce id r events)
    (hpr : .missionProjected p ∈ events) (hs : p.id = e.id ∧ p.runID = e.runID) :
    LaunchedOnce id r (events ++ [.missionStarted e]) := by
  intro hb ev ha split lau
  obtain ⟨rfl, rfl, -⟩ | ⟨rs, -, hea⟩ := Prefix.split_concat split
  · exact .inr ⟨⟨e, rfl⟩, p, hpr, hs.1.trans lau.1, hs.2.trans lau.2⟩
  · exact once hb ev rs hea lau

def Extended (id r : String) (s s' : Manager) : Prop :=
  ∃ more, s'.submitted = s.submitted ++ more ∧ Fresh id r more

lemma Extended.refl (s) : Extended id r s s := ⟨[], by simp, by simp [Fresh]⟩

lemma Extended.trans (h1 : Extended id r s s')
    (h2 : Extended id r s' s'') : Extended id r s s'' := by
  obtain ⟨more, hs, fresh⟩ := h1
  obtain ⟨mor', sam', fre'⟩ := h2
  exact ⟨more ++ mor', by rw [sam', hs, append_assoc], fresh.append fre'⟩

lemma Extended.fresh (ext : Extended id r s s') (fresh : Fresh id r s.submitted) :
    Fresh id r s'.submitted := by
  obtain ⟨more, hs, add⟩ := ext
  rw [hs]
  exact fresh.append add

lemma Extended.launchedOnce (ext : Extended id r s s')
    (once : LaunchedOnce id r s.submitted) : LaunchedOnce id r s'.submitted := by
  obtain ⟨more, hs, add⟩ := ext
  rw [hs]
  exact once.append add

lemma Extended.mem (ext : Extended id r s s') (mem : ev ∈ s.submitted) :
    ev ∈ s'.submitted := by
  obtain ⟨more, hs, -⟩ := ext
  rw [hs]
  exact mem_append_left _ mem

end

variable {m : Setup} {env : Env} {c : Control} {id r : String}
variable {s : Manager}
variable (m env c id r) in
abbrev Among {α : Type} (Post : History Request Reply → Manager → α → Prop) :=
  Always (serve m env c) (Extended id r) Post

variable (m env c id r) in
abbrev Once {α : Type} (p : Prog α) :=
  Among m env c id r (fun _ s _ => LaunchedOnce id r s.submitted) p

def NotLaunching (id r : String) (q : Request) : Prop := ∀ ev, q = .submit ev → ¬Launches id r ev

lemma submitted_notLaunching
    (hq : NotLaunching id r q) (hv : serve m env c s q a = some (t, reply)) :
    Extended id r s t := by
  have hsl (hs : t.submitted = s.submitted) : Extended id r s t :=
    ⟨[], by simpa using hs, by simp [Fresh]⟩
  have eff := serve_effect hv
  cases q with
  | submit ev =>
    exact ⟨[ev], congrArg Manager.submitted eff, by simpa [Fresh] using hq ev rfl⟩
  | incrementMissionCount am | decrementMissionCount am | reserveChildBudget am =>
    obtain rfl | rfl := eff <;> exact hsl rfl
  | releaseReservation am =>
    refine hsl ((congrArg Manager.submitted eff).trans ?_)
    unfold settle
    split <;> rfl
  | _ =>
    cases eff
    exact hsl rfl

section
variable {α : Type} {M : α → Prop} {p : Prog α} {past : History Request Reply} (hq : Obeys (fun _
  _ => True) (fun _ q => NotLaunching id r q) M [] p)
include hq

lemma kept_of_quiet {J : List Brain.Event → Prop}
    (sta : ∀ s t, Extended id r s t → J s.submitted → J t.submitted) (s0 : J s.submitted) :
    Among m env c id r (fun _ s _ => J s.submitted) p past s :=
  always_mono (always_of_obeys (I := fun s => J s.submitted) (fun _ _ hm => sta _ _ hm)
    (fun _ _ _ _ _ hh hho hv => sta _ _ (submitted_notLaunching hh hv) hho)
    hq s0) fun _ _ _ post => post.1

lemma once_of_quiet (once : LaunchedOnce id r s.submitted) : Once m env c id r p past s :=
  kept_of_quiet hq (fun _ _ hm => hm.launchedOnce) once

end

lemma once_of_launch {p : Prog Unit}
    (fresh : Fresh id r s.submitted) (hs : e.id = e'.id ∧ e.runID = e'.runID)
    (rs : ∀ past s, LaunchedOnce id r s.submitted → Once m env c id r p past s) :
    Once m env c id r
      (do
        ask (.submit (.missionProjected e))
        ask (.submit (.missionStarted e'))
        p) past s := by
  intro s₁ hm a t rp hv
  cases hv
  intro s₂ hm₂ a₂ t₂ rp₂ hv₂
  have once := hm₂.launchedOnce ((hm.fresh fresh).project e)
  have hpr : .missionProjected e ∈ s₂.submitted := hm₂.mem (by simp)
  cases hv₂
  exact rs _ _ (once.start hpr hs)

section
variable (am : ActiveMission)
include am

lemma quiet_releaseQuotaSlot : OnlyAsks (NotLaunching id r) since (releaseQuotaSlot m am) := by
  unfold releaseQuotaSlot
  split
  · exact ⟨by simp [NotLaunching], fun _ _ => trivial⟩
  · trivial

lemma quiet_takeQuotaSlot : OnlyAsks (NotLaunching id r) since (takeQuotaSlot m am) := by
  unfold takeQuotaSlot
  split
  · exact ⟨by simp [NotLaunching], fun _ _ => trivial⟩
  · trivial

variable (fresh : Fresh id r s.submitted)
include fresh

lemma once_failBeforeStart (reason) : Once m env c id r (failBeforeStart m am reason) past s := by
  refine once_of_launch fresh ⟨rfl, rfl⟩ fun past s once => ?_
  refine once_of_quiet (M := fun _ => True) ⟨?_, fun _ _ => trivial⟩ once
  rintro ev ⟨⟩
  simp [Launches]

lemma once_driveRun (runID proj beliefVersion) :
    Once m env c id r (driveRun m am runID proj beliefVersion) past s := by
  refine once_of_launch fresh ⟨rfl, rfl⟩ fun past s once => ?_
  refine once_of_quiet (M := fun _ => True) ?_ once
  refine ⟨by simp [NotLaunching], fun fin _ => ⟨by simp [NotLaunching], fun _ _ => ?_⟩⟩
  unfold endRunAccounting
  cases m.parentMissionID with
  | none => exact quiet_releaseQuotaSlot am
  | some _ => exact ⟨by simp [NotLaunching], fun _ _ => quiet_releaseQuotaSlot am⟩

lemma once_prepared (stage) {nx : stage.Product → Prog Unit}
    (rs : ∀ pd past s, Fresh id r s.submitted → Once m env c id r (nx pd) past s) :
    Once m env c id r (prepared m am stage nx) past s := by
  intro s' hm a t rp hv
  have hsl : Fresh id r t.submitted :=
    (submitted_notLaunching (by simp [NotLaunching]) hv).fresh (hm.fresh fresh)
  cases rp with
  | error err => exact once_failBeforeStart am hsl _
  | ok pd => exact rs pd _ t hsl

lemma once_reserveRunBudget : Among m env c id r
      (fun _ s goesOn => LaunchedOnce id r s.submitted ∧ (goesOn = true → Fresh id r s.submitted))
      (reserveRunBudget m am) past s := by
  unfold reserveRunBudget
  cases m.parentMissionID with
  | none => exact fun _ hm => ⟨(hm.fresh fresh).launchedOnce, fun _ => hm.fresh fresh⟩
  | some par =>
    intro s' hm a t rp hv
    have hsl : Fresh id r t.submitted :=
      (submitted_notLaunching (by simp [NotLaunching]) hv).fresh (hm.fresh fresh)
    cases rp with
    | ok _ => exact fun _ hm => ⟨(hm.fresh hsl).launchedOnce, fun _ => hm.fresh hsl⟩
    | error err =>
      show Among m env c id r _ (failBeforeStart m am _ >>= fun _ =>
        releaseQuotaSlot m am >>= fun _ => pure false) _ t
      refine always_bind Extended.refl
        (always_mono (once_failBeforeStart am hsl _) fun past s _ once => ?_)
      refine always_bind Extended.refl
        (always_mono (once_of_quiet (quiet_releaseQuotaSlot am) once) ?_)
      exact fun _ _ _ once _ hm => ⟨hm.launchedOnce once, by simp⟩

lemma once_executeRun : Once m env c id r (executeRun m am) past s := by
  refine always_bind Extended.refl (always_mono
    (kept_of_quiet (quiet_takeQuotaSlot am) (fun _ _ hm => hm.fresh) fresh)
    fun past s _ fresh => ?_)
  split
  · refine once_prepared am fresh .pool fun _ past s fresh => ?_
    split
    · exact once_failBeforeStart am fresh _
    refine once_prepared am fresh .projection fun proj past s fresh => ?_
    refine once_prepared am fresh .bootstrap fun _ past s fresh => ?_
    refine once_prepared am fresh .target fun _ past s fresh => ?_
    refine once_prepared am fresh .harness fun _ past s fresh => ?_
    refine once_prepared am fresh .pin fun ver past s fresh => ?_
    refine always_bind Extended.refl
      (always_mono (once_reserveRunBudget am fresh) fun past s goesOn hrs => ?_)
    cases goesOn with
    | true => exact once_driveRun am (hrs.2 rfl) _ proj ver
    | false => exact fun _ hm => hm.launchedOnce hrs.1
  · exact once_failBeforeStart am fresh _

end

lemma once_executeMission (fresh : Fresh id r s.submitted) :
    Once m env c id r (executeMission m) past s := by
  intro s' hm a t rp hv
  cases hv
  have hsl := hm.fresh fresh
  cases s'.active with
  | none => exact fun _ hm => hm.launchedOnce hsl.launchedOnce
  | some am =>
    show Among m env c id r _ (executeRun m am >>= fun _ => ask (.deleteActive am)) _ _
    refine always_bind Extended.refl
      (always_mono (once_executeRun am hsl) fun past s _ once => ?_)
    exact once_of_quiet (M := fun _ => True) ⟨by simp [NotLaunching], fun _ _ => trivial⟩ once

variable (m c r s) in
/-- The executor has just been launched, the World has not heard of the run, every further call is a
Stop, and nobody else launches the run. -/
structure Followed (steps : List RunStep) :
    Prop where
  entry : ∃ am, s.active = some am ∧ am.missionRun = some r
  named : r ≠ ""
  wellFormed : WellFormed c
  free : ¬Held c m.missionID r
  fresh : Fresh m.missionID r s.submitted
  calls : ∀ op, .start op ∈ steps → op = .stop
  others : ∀ ev, .outside (.submit ev) ∈ steps → ¬Launches m.missionID r ev

/-- The executor has returned. -/
def Returned (w : World (Served Manager Operation Request Reply)
    (Call Operation Request Reply Unit)) : Prop :=
  ∃ call, w.calls[0]? = some call ∧ call.rest = .done ()

variable (m r s) in
/-- Stop has submitted its end of the run. -/
def Stopped : Prop :=
  .missionDone { id := m.missionID, runID := r, outcome := some .failed,
                 reason := "stopped by user" } ∈ s.submitted

variable (m env c r) in
/-- Once a stopped run has returned and every event is folded, the World holds the run as ended or
not at all. -/
def StopIsFinal
    (w : World (Served Manager Operation Request Reply) (Call Operation Request Reply Unit)) :
    Prop :=
  Returned w → Stopped m r w.shared.state →
    ¬Unfinished (w.shared.state.submitted.foldl (reduceControl env) c) m.missionID r

lemma extended_change (os : ∀ ev, x = .submit ev → ¬Launches id r ev) :
    Extended id r s (change m env c s x) := by
  cases x with
  | submit ev => exact ⟨[ev], rfl, by simpa [Fresh] using os ev rfl⟩
  | claim am =>
    simp only [change]
    split
    · exact Extended.refl s
    · split <;> exact Extended.refl s
  | reserve am =>
    simp only [change]
    split <;> exact Extended.refl s
  | release am =>
    simp only [change, settle]
    split <;> exact Extended.refl s
  | _ => exact Extended.refl s

lemma launchedOnce_returned (hfd : Followed m c r s steps)
    (hre : Returned (run (runSystem m env c) (launched m s) steps)) :
    LaunchedOnce m.missionID r
      (run (runSystem m env c) (launched m s) steps).shared.state.submitted := by
  have hwa : Watched (serve m env c) (Extended m.missionID r) (NotLaunching m.missionID r)
      (fun _ s _ => LaunchedOnce m.missionID r s.submitted)
      (run (runSystem m env c) (launched m s) steps) := by
    refine watched_run steps Extended.refl (fun _ _ _ => Extended.trans)
      (watched_single (once_executeMission hfd.fresh)) ?_ ?_ ?_
    · intro op mem
      cases hfd.calls op mem
      refine ⟨by simp [NotLaunching], fun active _ => ?_⟩
      cases active with
      | none => trivial
      | some am =>
        refine ⟨?_, fun _ _ => ⟨by simp [NotLaunching], fun _ _ => trivial⟩⟩
        rintro ev ⟨⟩
        simp [Launches]
    · exact fun s q a t rp hq hv => submitted_notLaunching hq hv
    · intro hb e ha split
      refine extended_change fun ev hs => hfd.others ev ?_
      rw [split, hs]
      simp
  obtain ⟨cl, hh, rs⟩ := hre
  exact hwa.returned Extended.refl hh rs

/-- Stop is final exactly if Stop, or another end of the run, is submitted after its projection. -/
theorem stopIsFinal_iff (env : Env) {s : Manager} {steps : List RunStep}
    (followed : Followed m c r s steps) :
    StopIsFinal m env c r (run (runSystem m env c) (launched m s) steps) ↔
      (Returned (run (runSystem m env c) (launched m s) steps) →
        Stopped m r (run (runSystem m env c) (launched m s) steps).shared.state →
          ¬LeftGoing m.missionID r
            (run (runSystem m env c) (launched m s) steps).shared.state.submitted) := by
  unfold StopIsFinal
  refine forall_congr' fun hre => forall_congr' fun _ => not_congr ?_
  exact unfinished_iff_leftGoing env followed.wellFormed followed.named followed.free _
    (launchedOnce_returned followed hre)

lemma not_leftGoing_of_stopped (before after) (once : LaunchedOnce id r events)
    (split : events = before ++ .missionProjected e :: after) (own : e.id = id ∧ e.runID = r)
    (hsp : .missionDone { id, runID := r, outcome := some .failed,
                              reason := "stopped by user" } ∈ after) :
    ¬LeftGoing id r events := by
  rintro ⟨hb', e', aft', sp', own', run', kp⟩
  have ends : Ends id r (.missionDone
      { id, runID := r, outcome := some .failed, reason := "stopped by user" }) :=
    ⟨rfl, .inr rfl, rfl⟩
  -- The two projections are the same one, since the run is launched once.
  obtain ⟨mid, rfl, rs⟩ | ⟨mid, rfl, rs⟩ :=
    append_eq_append_iff.mp (split.symm.trans sp')
  · cases mid with
    | nil =>
      cases rs
      exact kp _ hsp ends
    | cons x mid =>
      cases rs
      obtain ⟨-, h1⟩ | ⟨⟨_, hs⟩, -⟩ := once _ _ _ sp' ⟨own', run'⟩
      · exact h1 (.missionProjected e) (by simp) own
      · cases hs
  · refine kp _ ?_ ends
    cases mid with
    | nil =>
      cases rs
      exact hsp
    | cons x mid =>
      cases rs
      simp [hsp]

def pentest : Setup := { missionID := "mission-1" }

def firstRun : ActiveMission := ⟨1, some "run-1"⟩

def entered : Manager :=
  { active := some firstRun, authz := Function.update (fun _ => none) "run-1" (some .active) }

def preparation : List RunStep :=
  [.advance 0 .succeeds, .advance 0 .succeeds, .advance 0 .succeeds,
    .advance 0 (.projects { id := "" }), .advance 0 .succeeds, .advance 0 .succeeds,
    .advance 0 .succeeds, .advance 0 (.pins "v1")]

def stopping : List RunStep :=
  [.start .stop, .advance 1 .succeeds, .advance 1 .succeeds, .advance 1 .succeeds]

def cancelledEnd : List RunStep :=
  [.advance 0 .interrupted, .advance 0 .succeeds, .advance 0 .succeeds, .advance 0 .succeeds]

def stoppedEarly : List RunStep :=
  preparation ++ stopping ++ [.advance 0 .succeeds, .advance 0 .succeeds] ++ cancelledEnd

def stoppedLate : List RunStep :=
  preparation ++ [.advance 0 .succeeds] ++ stopping ++ [.advance 0 .succeeds] ++ cancelledEnd

lemma followed_entered (calls : ∀ op, .start op ∈ steps → op = .stop)
    (others : ∀ ev, .outside (.submit ev) ∉ steps) : Followed pentest {} "run-1" entered steps where
  entry := ⟨firstRun, rfl, rfl⟩
  named := by decide
  wellFormed := wellFormed_empty
  free := by
    rintro ⟨m, hf, -⟩
    cases hf
  fresh := by simp [Fresh, entered]
  calls := calls
  others := fun ev mem => absurd mem (others ev)

theorem stoppedEarly_leftRunning : Followed pentest {} "run-1" entered stoppedEarly ∧
      ¬StopIsFinal pentest .plain {} "run-1"
        (run (runSystem pentest .plain {}) (launched pentest entered) stoppedEarly) := by
  refine ⟨followed_entered (by simp [stoppedEarly, preparation, stopping, cancelledEnd])
    (by simp [stoppedEarly, preparation, stopping, cancelledEnd]), fun fin => ?_⟩
  exact fin ⟨_, rfl, rfl⟩ (.head _) ⟨_, rfl, rfl, rfl⟩

theorem stoppedLate_final : StopIsFinal pentest .plain {} "run-1"
      (run (runSystem pentest .plain {}) (launched pentest entered) stoppedLate) := by
  have hfd : Followed pentest {} "run-1" entered stoppedLate :=
    followed_entered (by simp [stoppedLate, preparation, stopping, cancelledEnd])
      (by simp [stoppedLate, preparation, stopping, cancelledEnd])
  refine (stopIsFinal_iff .plain hfd).mpr fun hre _ => ?_
  exact not_leftGoing_of_stopped [] _ (launchedOnce_returned hfd hre) rfl ⟨rfl, rfl⟩
    (.head _)

end Gibson.Runs
