import Gibson.Runs.Stop

/-! What a run gives back: its slot of the quota, its authz record and its reservation. -/

namespace Gibson.Runs

open List Brain Requests Interleaving Calls Extended

variable {m : Setup} {env : Env} {c : Control} {own : ActiveMission}

/-- Everything that the run took is given back. -/
structure Settled (m : Setup) (own : ActiveMission) (s : Manager) : Prop where
  counter : s.decremented own = s.incremented own
  authz : ∃ status, s.authz (runIDOf own) = some status ∧ status ≠ .active
  reservation : m.parentMissionID.isSome → s.reserved = true → newerRunActive s own = true

def failed : (Σ q, Reply q) → Bool
  | ⟨.prepare _, .error _⟩ => true
  | ⟨.reserveChildBudget _, .error _⟩ => true
  | _ => false

def Failed (past : History Request Reply) : Prop := ∃ e ∈ past, failed e = true

/-- The accounts of the run are its own; others can only cancel it. -/
structure Undisturbed (own : ActiveMission) (s s' : Manager) : Prop where
  incremented : s'.incremented own = s.incremented own
  decremented : s'.decremented own = s.decremented own
  authz : s'.authz (runIDOf own) = s.authz (runIDOf own)
  cancelled : own ∈ s.cancelled → own ∈ s'.cancelled
  cutShort : own ∈ s'.cutShort ↔
    own ∈ s.cutShort ∨ own ∉ s.cancelled ∧ own ∈ s'.cancelled ∧ s.holdsSlot own = true

def Answered (own : ActiveMission) (s : Manager) : Prop :=
  s.reserved = true → newerRunActive s own = true

/-- Others leave the accounts and the reservation, and the entry until the launch. -/
structure Unharmed (id : String) (own : ActiveMission) (s s' : Manager) : Prop
    extends Undisturbed own s s' where
  answered : Answered own s → Answered own s'
  launched : Extended id (runIDOf own) s s'
  entry : s.active = some own → Fresh id (runIDOf own) s.submitted → s'.active = some own

section
variable {id : String}

lemma Undisturbed.holdsSlot (h : Undisturbed own s s') : s'.holdsSlot own = s.holdsSlot own := by
  unfold Manager.holdsSlot
  rw [h.incremented, h.decremented]

lemma Undisturbed.refl (s) : Undisturbed own s s :=
  ⟨rfl, rfl, rfl, id, by tauto⟩

lemma Undisturbed.trans (h1 : Undisturbed own s s') (h2 : Undisturbed own s' s'') :
    Undisturbed own s s'' where
  incremented := h2.incremented.trans h1.incremented
  decremented := h2.decremented.trans h1.decremented
  authz := h2.authz.trans h1.authz
  cancelled := h2.cancelled ∘ h1.cancelled
  cutShort := by
    rw [h2.cutShort, h1.cutShort, h1.holdsSlot]
    have hb := h1.cancelled
    have hla := h2.cancelled
    tauto

lemma Unharmed.refl (s) : Unharmed id own s s :=
  ⟨Undisturbed.refl s, fun h => h, Extended.refl s, fun h _ => h⟩

lemma Unharmed.trans (h1 : Unharmed id own s s') (h2 : Unharmed id own s' s'') :
    Unharmed id own s s'' where
  toUndisturbed := h1.toUndisturbed.trans h2.toUndisturbed
  answered := h2.answered ∘ h1.answered
  launched := h1.launched.trans h2.launched
  entry := fun hh hfr => h2.entry (h1.entry hh hfr) (h1.launched.fresh hfr)

lemma undisturbed_cancel (am) : Undisturbed own s (cancelContext s am) := by
  refine ⟨rfl, rfl, rfl, fun mem => mem_cons_of_mem _ mem, ?_⟩
  by_cases hs : am = own
  · subst hs
    simp only [cancelContext, mem_cons, true_or, true_and]
    split
    · next h => simp [h]
    · next h => tauto
  · have os : own ∈ (cancelContext s am).cutShort ↔ own ∈ s.cutShort := by
      simp only [cancelContext]
      split <;> simp [Ne.symm hs]
    simp only [cancelContext, mem_cons, Ne.symm hs, false_or]
    tauto

end

def OfStop (id r : String) : Request → Prop
  | .findActiveAnyTenant => True
  | .submit ev => ¬Launches id r ev
  | .cancel _ => True
  | _ => False

variable {s : Manager}

lemma unharmed_ofStop {id t q a reply}
    (kd : OfStop id (runIDOf own) q) (hv : serve m env c s q a = some (t, reply)) :
    Unharmed id own s t := by
  cases q with
  | findActiveAnyTenant =>
    cases hv
    exact Unharmed.refl s
  | submit ev =>
    cases hv
    exact { Unharmed.refl s with launched := ⟨[ev], rfl, by simpa [Fresh, OfStop] using kd⟩ }
  | cancel am =>
    cases hv
    exact { Unharmed.refl s with toUndisturbed := undisturbed_cancel am }
  | _ => exact kd.elim

lemma not_runEnded_of_fresh (wf : WellFormed c) (hn : runIDOf own ≠ "")
    (free : ¬Held c m.missionID (runIDOf own))
    (hfr : Fresh m.missionID (runIDOf own) s.submitted) : runEnded m env c s own = false := by
  have hab : ¬Held (s.world env c) m.missionID (runIDOf own) :=
    not_held_foldl wf hn free _ fun ev mem => hfr ev (mem_of_mem_take mem)
  unfold runEnded endOf
  cases hf : findMission (s.world env c) m.missionID with
  | none => rfl
  | some mi =>
    have ho : mi.runID ≠ runIDOf own := fun hs => hab ⟨mi, hf, hs⟩
    simp [ho]

/-- Other runs have entries of their own and do not leave with the reservation held. -/
def Orderly (id : String) (own : ActiveMission) (s : Manager) : Change → Prop
  | .submit ev => ¬Launches id (runIDOf own) ev
  | .fold => True
  | .claim am | .reserve am | .release am => am ≠ own
  | .leave am => am ≠ own ∧ (s.active = some am → s.reserved = false)

lemma newerRunActive_iff : newerRunActive s own = true ↔ ∃ am, s.active = some am ∧ am ≠ own := by
  unfold newerRunActive
  cases s.active <;> simp

lemma unharmed_change (wf : WellFormed c) (hn : runIDOf own ≠ "")
    (free : ¬Held c m.missionID (runIDOf own)) (hor : Orderly m.missionID own s x) :
    Unharmed m.missionID own s (change m env c s x) := by
  cases x with
  | submit ev =>
    exact { Unharmed.refl s with launched := ⟨[ev], rfl, by simpa [Fresh, Orderly] using hor⟩ }
  | fold => exact { Unharmed.refl s with }
  | claim am =>
    have hcla : newerRunActive { s with active := some am } own = true :=
      newerRunActive_iff.mpr ⟨am, rfl, hor⟩
    cases hol : s.active with
    | none =>
      simp only [change, hol]
      exact { Unharmed.refl s with
        answered := fun _ _ => hcla, entry := fun hh => by simp [hol] at hh }
    | some cur =>
      by_cases hed : runEnded m env c s cur = true
      · simp only [change, hol, hed, if_true]
        refine { Unharmed.refl s with answered := fun _ _ => hcla, entry := fun hh hfr => ?_ }
        rw [hol] at hh
        cases hh
        rw [not_runEnded_of_fresh wf hn free hfr] at hed
        cases hed
      · simp only [change, hol, hed, Bool.false_eq_true, if_false]
        exact Unharmed.refl s
  | reserve am =>
    simp only [change]
    split
    · next hh =>
      exact { Unharmed.refl s with
        answered := fun _ _ => newerRunActive_iff.mpr ⟨am, hh, hor⟩ }
    · exact Unharmed.refl s
  | release am =>
    simp only [change, settle]
    split
    · exact Unharmed.refl s
    · exact { Unharmed.refl s with answered := fun _ hhe => by cases hhe }
  | leave am =>
    refine { Unharmed.refl s with answered := fun answered hhe => ?_, entry := fun hh _ => ?_ }
    · obtain ⟨ho, hh, ne⟩ := newerRunActive_iff.mp (answered hhe)
      have hsy : s.active ≠ some am := fun hs => by
        have free : s.reserved = false := hor.2 hs
        rw [show s.reserved = true from hhe] at free
        cases free
      refine newerRunActive_iff.mpr ⟨ho, ?_, ne⟩
      exact (if_neg hsy).trans hh
    · have hsy : s.active ≠ some am := by
        rw [hh]
        exact fun hs => hor.1 (Option.some.inj hs).symm
      exact (if_neg hsy).trans hh

variable (m own s) in
/-- None was taken, or one was, and the run is cut short exactly if it is cancelled. -/
def Slot : Prop :=
  s.decremented own = s.incremented own ∧ own ∉ s.cutShort ∧
      (m.quotaCounter = true → own ∈ s.cancelled) ∨
    s.decremented own + 1 = s.incremented own ∧ m.quotaCounter = true ∧
      (own ∈ s.cutShort ↔ own ∈ s.cancelled)

/-- The run holds its slot and record. -/
structure Preparing (m : Setup) (own : ActiveMission) (past : History Request Reply)
    (s : Manager) : Prop where
  slot : Slot m own s
  authz : s.authz (runIDOf own) = some .active
  clean : ¬Failed past

/-- The run failed before it began. -/
structure Abandoned (m : Setup) (own : ActiveMission) (past : History Request Reply)
    (s : Manager) : Prop where
  authz : s.authz (runIDOf own) = some .active
  failed : m.pool = false ∨ Failed past

/-- The run ended without a failure. -/
structure Finished (m : Setup) (own : ActiveMission) (past : History Request Reply)
    (s : Manager) : Prop where
  pool : m.pool = true
  clean : ¬Failed past
  authz : ∃ status, s.authz (runIDOf own) = some status ∧ status ≠ .active
  reservation : m.parentMissionID.isSome → Answered own s
  slot : s.decremented own = s.incremented own ∧ own ∉ s.cutShort ∨
    s.decremented own < s.incremented own ∧ own ∈ s.cutShort

lemma Slot.undisturbed (slot : Slot m own s) (h : Undisturbed own s s') : Slot m own s' := by
  obtain ⟨hbal, hwh, hcd⟩ | ⟨hct, quo, cut⟩ := slot
  · refine .inl ⟨by rw [h.decremented, h.incremented, hbal], ?_, h.cancelled ∘ hcd⟩
    rw [h.cutShort]
    simp [hwh, Manager.holdsSlot, hbal]
  · refine .inr ⟨by rw [h.decremented, h.incremented, hct], quo, ?_⟩
    have hhe : s.holdsSlot own = true := by
      simp only [Manager.holdsSlot, decide_eq_true_eq]
      omega
    have hla := h.cancelled
    rw [h.cutShort, cut, hhe]
    tauto

lemma Preparing.undisturbed (hpg : Preparing m own past s) (h : Undisturbed own s s') :
    Preparing m own past s' :=
  ⟨hpg.slot.undisturbed h, h.authz.trans hpg.authz, hpg.clean⟩

lemma Abandoned.undisturbed (hba : Abandoned m own past s) (h : Undisturbed own s s') :
    Abandoned m own past s' :=
  ⟨h.authz.trans hba.authz, hba.failed⟩

lemma Finished.unharmed {id} (hfi : Finished m own past s)
    (h : Unharmed id own s s') : Finished m own past s' := by
  refine ⟨hfi.pool, hfi.clean, ?_,
    fun child => h.answered (hfi.reservation child), ?_⟩
  · rw [h.authz]
    exact hfi.authz
  rw [h.decremented, h.incremented, h.cutShort]
  obtain ⟨hbal, hwh⟩ | ⟨hct, cut⟩ := hfi.slot
  · refine .inl ⟨hbal, ?_⟩
    simp [hwh, Manager.holdsSlot, hbal]
  · exact .inr ⟨hct, .inl cut⟩

lemma failed_cons : Failed (e :: past) ↔ failed e = true ∨ Failed past := by
  simp [Failed]

lemma Preparing.cons (hpg : Preparing m own past s)
    (fine : failed e = false) : Preparing m own (e :: past) s :=
  ⟨hpg.slot, hpg.authz, by simp [failed_cons, fine, hpg.clean]⟩

lemma settled_of_abandoned (hba : Abandoned m own past s) :
    Settled m own s ↔ m.pool = true ∧ ¬Failed past ∧ own ∉ s.cutShort := by
  refine iff_of_false (fun hse => ?_) fun fine => ?_
  · obtain ⟨sta, is, hed⟩ := hse.authz
    rw [hba.authz] at is
    exact hed (Option.some.inj is).symm
  · obtain noP | failed := hba.failed
    · simp [noP] at fine
    · exact fine.2.1 failed

lemma settled_of_finished (hfi : Finished m own past s) :
    Settled m own s ↔ m.pool = true ∧ ¬Failed past ∧ own ∉ s.cutShort := by
  obtain ⟨hbal, hwh⟩ | ⟨hct, cut⟩ := hfi.slot
  · exact iff_of_true ⟨hbal, hfi.authz, hfi.reservation⟩
      ⟨hfi.pool, hfi.clean, hwh⟩
  refine iff_of_false (fun hse => ?_) fun fine => fine.2.2 cut
  have := hse.counter
  omega

variable (m env c own) in
abbrev Accounted {α : Type} (Post : History Request Reply → Manager → α → Prop) :=
  Always (serve m env c) (Unharmed m.missionID own) Post

lemma undisturbed_submit
    (hv : serve m env c s (.submit ev) a = some (t, u)) : Undisturbed own s t := by
  cases hv
  exact { Undisturbed.refl s with }

lemma abandoned_failBeforeStart (reason) (hba : Abandoned m own pa s) :
    Accounted m env c own (fun pa s _ => Abandoned m own pa s)
      (failBeforeStart m own reason) pa s := by
  have sub {ev} (nx : Prog Unit)
      (rs : ∀ pa s, Abandoned m own pa s →
        Accounted m env c own (fun pa s _ => Abandoned m own pa s) nx pa s)
      (pa : History Request Reply) (s : Manager) (hba : Abandoned m own pa s) :
      Accounted m env c own (fun pa s _ => Abandoned m own pa s)
        (ask (.submit ev) >>= fun _ => nx) pa s := by
    intro s' hm a t rp hv
    have hb := hba.undisturbed hm.toUndisturbed
    have ha := hb.undisturbed (undisturbed_submit hv)
    exact rs _ t ⟨ha.authz, ha.failed.imp_right fun failed => failed_cons.mpr (.inr failed)⟩
  refine sub _ (sub _ fun pa s hba => ?_) pa s hba
  refine sub (pure ()) (fun pa s hba _ hm => ?_) pa s hba
  exact hba.undisturbed hm.toUndisturbed

lemma preparing_takeQuotaSlot (hbal : s.decremented own = s.incremented own)
    (hwh : own ∉ s.cutShort) (aut : s.authz (runIDOf own) = some .active)
    (clean : ¬Failed pa) :
    Accounted m env c own (fun pa s _ => Preparing m own pa s)
      (takeQuotaSlot m own) pa s := by
  have bal {s'} (hm : Undisturbed own s s') :
      s'.decremented own = s'.incremented own := by
    rw [hm.decremented, hm.incremented, hbal]
  have who {s'} (hm : Undisturbed own s s') : own ∉ s'.cutShort := by
    rw [hm.cutShort]
    simp [hwh, Manager.holdsSlot, hbal]
  unfold takeQuotaSlot
  by_cases quo : m.quotaCounter = true
  · rw [if_pos quo]
    intro s₁ hm a t rp hv
    have hsy := bal hm.toUndisturbed
    have unc := who hm.toUndisturbed
    have hsl := hm.authz.trans aut
    have fine : ¬Failed (⟨.incrementMissionCount own, rp⟩ :: pa) := by
      simp [failed_cons, failed, clean]
    refine fun s₂ hm₂ => Preparing.undisturbed ?_ hm₂.toUndisturbed
    simp only [serve] at hv
    split at hv
    · next hcd =>
      cases hv
      exact ⟨.inl ⟨hsy, unc, fun _ => hcd⟩, hsl, fine⟩
    · next hli =>
      cases hv
      refine ⟨.inr ⟨?_, quo, iff_of_false unc hli⟩, hsl, fine⟩
      simp [hsy]
  · rw [if_neg quo]
    intro s₁ hm
    refine ⟨.inl ⟨bal hm.toUndisturbed, who hm.toUndisturbed, ?_⟩,
      hm.authz.trans aut, clean⟩
    exact fun on => absurd on quo

lemma abandoned_releaseQuotaSlot (hba : Abandoned m own pa s) :
    Accounted m env c own (fun pa s _ => Abandoned m own pa s)
      (releaseQuotaSlot m own) pa s := by
  unfold releaseQuotaSlot
  split
  · intro s' hm a t rp hv
    have hb := hba.undisturbed hm.toUndisturbed
    refine fun s'' mov' => Abandoned.undisturbed ?_ mov'.toUndisturbed
    refine ⟨?_, hb.failed.imp_right fun failed => failed_cons.mpr (.inr failed)⟩
    simp only [serve] at hv
    split at hv <;>
    · cases hv
      exact hb.authz
  · exact fun s' hm => hba.undisturbed hm.toUndisturbed

lemma finished_releaseQuotaSlot (pool : m.pool = true) (clean : ¬Failed pa)
    (slot : Slot m own s) (aut : ∃ status, s.authz (runIDOf own) = some status ∧ status ≠ .active)
    (res : m.parentMissionID.isSome → Answered own s) :
    Accounted m env c own (fun pa s _ => Finished m own pa s)
      (releaseQuotaSlot m own) pa s := by
  unfold releaseQuotaSlot
  by_cases quo : m.quotaCounter = true
  · rw [if_pos quo]
    intro s₁ hm a t rp hv
    have fine : ¬Failed (⟨.decrementMissionCount own, rp⟩ :: pa) := by
      simp [failed_cons, failed, clean]
    have hed : ∃ status, s₁.authz (runIDOf own) = some status ∧ status ≠ .active := by
      rwa [hm.authz]
    have han := fun child => hm.answered (res child)
    have slot := slot.undisturbed hm.toUndisturbed
    refine fun s₂ hm₂ => Finished.unharmed ?_ hm₂
    simp only [serve] at hv
    split at hv
    · next hcd =>
      cases hv
      refine ⟨pool, fine, hed, han, ?_⟩
      obtain ⟨hbal, hwh, -⟩ | ⟨hct, -, cut⟩ := slot
      · exact .inl ⟨hbal, hwh⟩
      · exact .inr ⟨by omega, cut.mpr hcd⟩
    · next hli =>
      cases hv
      refine ⟨pool, fine, hed, han, ?_⟩
      obtain ⟨-, -, hcd⟩ | ⟨hct, -, cut⟩ := slot
      · exact absurd (hcd quo) hli
      · refine .inl ⟨?_, fun mem => hli (cut.mp mem)⟩
        simp [hct]
  · rw [if_neg quo]
    intro s₁ hm
    refine Finished.unharmed ⟨pool, clean, aut, res, ?_⟩ hm
    obtain ⟨hbal, hwh, -⟩ | ⟨-, on, -⟩ := slot
    · exact .inl ⟨hbal, hwh⟩
    · exact absurd on quo

lemma answered_settle (s) : Answered own (settle s own) := by
  unfold settle
  split
  · next new0 => exact fun _ => new0
  · exact fun hhe => by cases hhe

lemma undisturbed_settle (own s) : Undisturbed own s (settle s own) := by
  unfold settle
  split
  · exact Undisturbed.refl s
  · exact { Undisturbed.refl s with }

lemma finished_endRunAccounting (pool : m.pool = true) (clean : ¬Failed pa) (slot : Slot m own s)
    (aut : ∃ status, s.authz (runIDOf own) = some status ∧ status ≠ .active) :
    Accounted m env c own (fun pa s _ => Finished m own pa s)
      (endRunAccounting m own) pa s := by
  unfold endRunAccounting
  by_cases child : m.parentMissionID.isSome = true
  · rw [if_pos child]
    intro s₁ hm a t rp hv
    cases hv
    have hs := hm.toUndisturbed.trans (undisturbed_settle own s₁)
    refine finished_releaseQuotaSlot pool (by simp [failed_cons, failed, clean])
      (slot.undisturbed hs) ?_ fun _ => answered_settle s₁
    rwa [hs.authz]
  · rw [if_neg child]
    exact finished_releaseQuotaSlot pool clean slot aut fun is => absurd is child

lemma finished_driveRun (hs : runIDOf own = runID) (proj beliefVersion) (pool : m.pool = true)
    (hpg : Preparing m own pa s) :
    Accounted m env c own (fun pa s _ => Finished m own pa s)
      (driveRun m own runID proj beliefVersion) pa s := by
  subst hs
  intro s₁ hm₁ a₁ t₁ r₁ hv₁
  have h1 := hpg.undisturbed (hm₁.toUndisturbed.trans (undisturbed_submit hv₁))
  intro s₂ hm₂ a₂ t₂ r₂ hv₂
  have h2 := h1.undisturbed (hm₂.toUndisturbed.trans (undisturbed_submit hv₂))
  intro s₃ hm₃ a₃ t₃ fin hv₃
  cases show t₃ = s₃ from serve_effect hv₃
  have thi := h2.undisturbed hm₃.toUndisturbed
  intro s₄ hm₄ a₄ t₄ r₄ hv₄
  have slot := thi.slot.undisturbed hm₄.toUndisturbed
  cases hv₄
  refine finished_endRunAccounting pool (by simp [failed_cons, failed, hpg.clean]) slot ?_
  refine ⟨_, Function.update_self .., ?_⟩
  split <;> decide

lemma accounted_prepared (stage) {nx : stage.Product → Prog Unit}
    (hpg : Preparing m own pa s) (rs : ∀ pd pa s, Preparing m own pa s →
      Accounted m env c own (fun pa s _ => Abandoned m own pa s ∨ Finished m own pa s)
        (nx pd) pa s) :
    Accounted m env c own (fun pa s _ => Abandoned m own pa s ∨ Finished m own pa s)
      (prepared m own stage nx) pa s := by
  intro s' hm a t rp hv
  cases show t = s' from serve_effect hv
  have hsl := hpg.undisturbed hm.toUndisturbed
  cases rp with
  | error err =>
    refine always_mono (abandoned_failBeforeStart _ ⟨hsl.authz, .inr ?_⟩) fun _ _ _ => .inl
    exact failed_cons.mpr (.inl rfl)
  | ok pd => exact rs pd _ s' (hsl.cons rfl)

lemma accounted_reserveRunBudget (hpg : Preparing m own pa s) : Accounted m env c own
      (fun pa s goesOn =>
        if goesOn = true then Preparing m own pa s else Abandoned m own pa s)
      (reserveRunBudget m own) pa s := by
  unfold reserveRunBudget
  cases m.parentMissionID with
  | none => exact fun s' hm => hpg.undisturbed hm.toUndisturbed
  | some par =>
    intro s' hm a t rp hv
    have hb := hpg.undisturbed hm.toUndisturbed
    have kp : Undisturbed own s' t := by
      obtain rfl | rfl := serve_effect hv
      · exact Undisturbed.refl t
      · exact { Undisturbed.refl s' with }
    have hsl := hb.undisturbed kp
    cases rp with
    | ok _ => exact fun s'' mov' => (hsl.cons rfl).undisturbed mov'.toUndisturbed
    | error err =>
      show Accounted m env c own _ (failBeforeStart m own _ >>= fun _ =>
        releaseQuotaSlot m own >>= fun _ => pure false) _ t
      refine always_bind Unharmed.refl (always_mono (abandoned_failBeforeStart _
        ⟨hsl.authz, .inr (failed_cons.mpr (.inl rfl))⟩) fun pa s _ hba => ?_)
      refine always_bind Unharmed.refl
        (always_mono (abandoned_releaseQuotaSlot hba) fun pa s _ hba => ?_)
      exact fun s' hm => hba.undisturbed hm.toUndisturbed

lemma accounted_executeRun (run : own.missionRun = some runID)
    (hbal : s.decremented own = s.incremented own) (hwh : own ∉ s.cutShort)
    (aut : s.authz (runIDOf own) = some .active) (clean : ¬Failed pa) :
    Accounted m env c own (fun pa s _ => Abandoned m own pa s ∨ Finished m own pa s)
      (executeRun m own) pa s := by
  refine always_bind Unharmed.refl (always_mono
    (preparing_takeQuotaSlot hbal hwh aut clean) fun pa s _ hpg => ?_)
  by_cases pool : m.pool = true
  · rw [if_pos pool]
    refine accounted_prepared .pool hpg fun _ pa s hpg => ?_
    simp only [run]
    refine accounted_prepared .projection hpg fun proj pa s hpg => ?_
    refine accounted_prepared .bootstrap hpg fun _ pa s hpg => ?_
    refine accounted_prepared .target hpg fun _ pa s hpg => ?_
    refine accounted_prepared .harness hpg fun _ pa s hpg => ?_
    refine accounted_prepared .pin hpg fun ver pa s hpg => ?_
    refine always_bind Unharmed.refl
      (always_mono (accounted_reserveRunBudget hpg) fun pa s goesOn hrs => ?_)
    cases goesOn with
    | true =>
      exact always_mono (finished_driveRun (by simp [runIDOf, run]) proj ver pool hrs)
        fun _ _ _ => .inr
    | false => exact fun s' hm => .inl (hrs.undisturbed hm.toUndisturbed)
  · rw [if_neg pool]
    exact always_mono (abandoned_failBeforeStart _ ⟨hpg.authz, .inl (by simpa using pool)⟩)
      fun _ _ _ => .inl

lemma Finished.deleteActive (hfi : Finished m own past s) :
    Finished m own past (deleteActive s own) := by
  refine ⟨hfi.pool, hfi.clean, hfi.authz, fun child hhe => ?_, hfi.slot⟩
  obtain ⟨ho, hh, ne⟩ := newerRunActive_iff.mp (hfi.reservation child hhe)
  refine newerRunActive_iff.mpr ⟨ho, ?_, ne⟩
  have hsy : s.active ≠ some own := by
    rw [hh]
    exact fun hs => ne (Option.some.inj hs)
  exact (if_neg hsy).trans hh

lemma accounted_executeMission (run : own.missionRun = some runID) (en : s.active = some own)
    (hfr : Fresh m.missionID (runIDOf own) s.submitted)
    (hbal : s.decremented own = s.incremented own) (hwh : own ∉ s.cutShort)
    (aut : s.authz (runIDOf own) = some .active) :
    Accounted m env c own
      (fun pa s _ => Settled m own s ↔ m.pool = true ∧ ¬Failed pa ∧ own ∉ s.cutShort)
      (executeMission m) [] s := by
  intro s₁ hm₁ a₁ t₁ hf hv₁
  have hh : s₁.active = some own := hm₁.entry en hfr
  cases hv₁
  rw [hh]
  show Accounted m env c own _ (executeRun m own >>= fun _ => ask (.deleteActive own)) _ s₁
  refine always_bind Unharmed.refl (always_mono (accounted_executeRun run ?_ ?_
    (hm₁.authz.trans aut) (by simp [Failed, failed])) fun pa s _ exit => ?_)
  · rw [hm₁.decremented, hm₁.incremented, hbal]
  · rw [hm₁.cutShort]
    simp [hwh, Manager.holdsSlot, hbal]
  intro s₂ hm₂ a₂ t₂ rp₂ hv₂ s₃ hm₃
  cases hv₂
  obtain hba | finished := exit
  · have hgn := hba.undisturbed hm₂.toUndisturbed
    have hle : Abandoned m own (⟨.deleteActive own, ()⟩ :: pa) (deleteActive s₂ own) :=
      ⟨hgn.authz, hgn.failed.imp_right fun failed => failed_cons.mpr (.inr failed)⟩
    exact settled_of_abandoned (hle.undisturbed hm₃.toUndisturbed)
  · have hle := (finished.unharmed hm₂).deleteActive
    have clean : ¬Failed (⟨.deleteActive own, ()⟩ :: pa) := by
      simp [failed_cons, failed, hle.clean]
    have hdn : Finished m own (⟨.deleteActive own, ()⟩ :: pa) (deleteActive s₂ own) :=
      ⟨hle.pool, clean, hle.authz, hle.reservation, hle.slot⟩
    exact settled_of_finished (hdn.unharmed hm₃)

/-- The authz record is active, nothing was taken yet, and what others do is orderly. -/
structure Entered (m : Setup) (env : Env) (c : Control) (r : String) (own : ActiveMission)
    (s : Manager) (steps : List RunStep) : Prop where
  entry : s.active = some own
  missionRun : own.missionRun = some r
  named : r ≠ ""
  wellFormed : WellFormed c
  free : ¬Held c m.missionID r
  fresh : Fresh m.missionID r s.submitted
  authz : s.authz r = some .active
  balanced : s.decremented own = s.incremented own
  whole : own ∉ s.cutShort
  calls : ∀ op, .start op ∈ steps → op = .stop
  orderly : ∀ before x after, steps = before ++ .outside x :: after →
    Orderly m.missionID own (run (runSystem m env c) (launched m s) before).shared.state x

variable (m env c own s) in
/-- At some step Stop cancels the run, which goes on until then, while it holds its slot. -/
def CancelledHolding (steps : List RunStep) : Prop :=
  ∃ before i a after call next, steps = before ++ .advance i a :: after ∧
    (run (runSystem m env c) (launched m s) before).calls[i]? = some call ∧
    call.rest = .ask (.cancel own) next ∧
    own ∉ (run (runSystem m env c) (launched m s) before).shared.state.cancelled ∧
    (run (runSystem m env c) (launched m s) before).shared.state.holdsSlot own = true

lemma cutShort_serve (hv : serve m env c s q a = some (t, reply)) :
    (∃ am, q = .cancel am ∧ t = cancelContext s am) ∨
      (∀ am, q ≠ .cancel am) ∧ t.cutShort = s.cutShort := by
  have eff := serve_effect hv
  cases q with
  | cancel am => exact .inl ⟨am, rfl, eff⟩
  | incrementMissionCount am | decrementMissionCount am | reserveChildBudget am =>
    obtain rfl | rfl := eff <;> exact .inr ⟨by simp, rfl⟩
  | releaseReservation am =>
    refine .inr ⟨by simp, (congrArg Manager.cutShort eff).trans ?_⟩
    unfold settle
    split <;> rfl
  | _ =>
    cases eff
    exact .inr ⟨by simp, rfl⟩

lemma cutShort_change (s x) : (change m env c s x).cutShort = s.cutShort := by
  cases x with
  | claim am =>
    simp only [change]
    split
    · rfl
    · split <;> rfl
  | reserve am =>
    simp only [change]
    split <;> rfl
  | release am =>
    simp only [change, settle]
    split <;> rfl
  | _ => rfl

lemma mem_cutShort_step (w : World (Served Manager Operation Request Reply)
    (Call Operation Request Reply Unit)) (x) :
    own ∈ (step (runSystem m env c) w x).shared.state.cutShort ↔
      own ∈ w.shared.state.cutShort ∨ ∃ i a cl nx, x = .advance i a ∧
        w.calls[i]? = some cl ∧ cl.rest = .ask (.cancel own) nx ∧
        own ∉ w.shared.state.cancelled ∧ w.shared.state.holdsSlot own = true := by
  cases x with
  | start op => simp [step]
  | outside e =>
    have hs : (step (runSystem m env c) w (.outside e)).shared.state.cutShort =
        w.shared.state.cutShort := cutShort_change w.shared.state e
    simp [hs]
  | advance i a =>
    cases hh : w.calls[i]? with
    | none => simp [step, hh]
    | some cl =>
      have hm : (step (runSystem m env c) w (.advance i a)).shared =
          (advance (serve m env c) w.shared cl a).1 :=
        congrArg World.shared (step_advance_some hh a)
      rw [hm]
      cases rs : cl.rest with
      | done u => simp [advance, rs, hh]
      | ask q nx =>
        cases hv : serve m env c w.shared.state q a with
        | none =>
          have ho : ∀ am, q ≠ .cancel am := by
            rintro am rfl
            cases hv
          simp [advance, rs, hv, hh, ho]
        | some an =>
          have st : (advance (serve m env c) w.shared cl a).1.state = an.1 := by
            simp only [advance, rs, hv]
          rw [st]
          obtain ⟨am, rfl, hs⟩ | ⟨ho, hs⟩ := cutShort_serve hv
          · rw [hs, (undisturbed_cancel am).cutShort]
            refine or_congr_right ⟨fun cut => ?_, ?_⟩
            · have her' : am = own := by
                obtain hs | old := mem_cons.mp cut.2.1
                · exact hs.symm
                · exact absurd old cut.1
              subst her'
              exact ⟨i, a, cl, nx, rfl, hh, rs, cut.1, cut.2.2⟩
            · rintro ⟨_, _, _, _, hadv, ht, hax, hli, hhe⟩
              cases hadv
              cases hh.symm.trans ht
              cases rs.symm.trans hax
              exact ⟨hli, mem_cons_self, hhe⟩
          · rw [hs]
            simp [hh, rs, ho]

lemma mem_cutShort_iff (hwh : own ∉ s.cutShort) (ss) :
    own ∈ (run (runSystem m env c) (launched m s) ss).shared.state.cutShort ↔
      CancelledHolding m env c own s ss := by
  induction ss using reverseRecOn with
  | nil =>
    refine iff_of_false hwh ?_
    rintro ⟨hb, _, _, _, _, _, split, -⟩
    simp at split
  | append_singleton hb x ih =>
    rw [run_append_singleton]
    -- The cancellation took place before the last step, or is the last step.
    have hla : CancelledHolding m env c own s (hb ++ [x]) ↔
        CancelledHolding m env c own s hb ∨ ∃ i a cl nx, x = .advance i a ∧
          (run (runSystem m env c) (launched m s) hb).calls[i]? = some cl ∧
          cl.rest = .ask (.cancel own) nx ∧
          own ∉ (run (runSystem m env c) (launched m s) hb).shared.state.cancelled ∧
          (run (runSystem m env c) (launched m s) hb).shared.state.holdsSlot own = true := by
      constructor
      · rintro ⟨s0, i, a, ha, cl, nx, split, rs⟩
        obtain ⟨rfl, rfl, -⟩ | ⟨more, -, hea⟩ := Prefix.split_concat split
        · exact .inr ⟨i, a, cl, nx, rfl, rs⟩
        · exact .inl ⟨s0, i, a, more, cl, nx, hea, rs⟩
      · rintro (⟨s0, i, a, ha, cl, nx, rfl, rs⟩ | ⟨i, a, cl, nx, rfl, rs⟩)
        · exact ⟨s0, i, a, ha ++ [x], cl, nx, by simp, rs⟩
        · exact ⟨hb, i, a, [], cl, nx, rfl, rs⟩
    rw [hla, ← ih]
    exact mem_cutShort_step _ x

/-- When the executor of a run has returned, everything is given back exactly if the pool is there,
no preparation and no reservation of the run failed, and Stop did not cancel the run while it held
its slot of the quota. -/
theorem endedRun_settled_iff {r : String} {own : ActiveMission} {s : Manager} {steps : List RunStep}
    (entered : Entered m env c r own s steps) {call : Call Operation Request Reply Unit}
    (executor : (run (runSystem m env c) (launched m s) steps).calls[0]? = some call)
    (returned : call.rest = .done ()) :
    Settled m own (run (runSystem m env c) (launched m s) steps).shared.state ↔
      m.pool = true ∧ ¬Failed call.past ∧ ¬CancelledHolding m env c own s steps := by
  rw [← mem_cutShort_iff entered.whole]
  have hs : runIDOf own = r := by simp [runIDOf, entered.missionRun]
  have hwa : Watched (serve m env c) (Unharmed m.missionID own) (OfStop m.missionID r)
      (fun past s _ => Settled m own s ↔ m.pool = true ∧ ¬Failed past ∧ own ∉ s.cutShort)
      (run (runSystem m env c) (launched m s) steps) := by
    subst hs
    refine watched_run steps Unharmed.refl (fun _ _ _ => Unharmed.trans)
      (watched_single (accounted_executeMission entered.missionRun entered.entry entered.fresh
        entered.balanced entered.whole entered.authz)) ?_ ?_ ?_
    · intro op mem
      cases entered.calls op mem
      refine ⟨trivial, fun active _ => ?_⟩
      cases active with
      | none => trivial
      | some am => exact ⟨by simp [OfStop, Launches], fun _ _ => ⟨trivial, fun _ _ => trivial⟩⟩
    · exact fun s q a t rp kd hv => unharmed_ofStop kd hv
    · intro hb x ha split
      exact unharmed_change entered.wellFormed entered.named entered.free
        (entered.orderly hb x ha split)
  exact hwa.returned Unharmed.refl executor returned

def child (parent : Option String) : Setup := { pentest with parentMissionID := parent }

lemma entered_entered (parent) (calls : ∀ op, .start op ∈ steps → op = .stop)
    (orderly : ∀ x, .outside x ∈ steps → ∀ s, Orderly "mission-1" firstRun s x) :
    Entered (child parent) .plain {} "run-1" firstRun entered steps where
  entry := rfl
  missionRun := rfl
  named := by decide
  wellFormed := wellFormed_empty
  free := by
    rintro ⟨m, hf, -⟩
    cases hf
  fresh := by simp [Fresh, entered]
  authz := rfl
  balanced := rfl
  whole := by simp [entered]
  calls := calls
  orderly := fun hb x ha split => orderly x (by simp [split]) _

def failedPool : List RunStep :=
  [.advance 0 .succeeds, .advance 0 .succeeds, .advance 0 (.fails "unreachable"),
    .advance 0 .succeeds, .advance 0 .succeeds, .advance 0 .succeeds, .advance 0 .succeeds]

/-- A run whose pool cannot be reached keeps its slot and authz record, a stopped one its slot. -/
theorem endedRuns_unsettled :
    (Entered pentest .plain {} "run-1" firstRun entered failedPool ∧
      Returned (run (runSystem pentest .plain {}) (launched pentest entered) failedPool) ∧
      ¬Settled pentest firstRun
        (run (runSystem pentest .plain {}) (launched pentest entered) failedPool).shared.state) ∧
    Entered pentest .plain {} "run-1" firstRun entered stoppedLate ∧
      Returned (run (runSystem pentest .plain {}) (launched pentest entered) stoppedLate) ∧
      ¬Settled pentest firstRun
        (run (runSystem pentest .plain {}) (launched pentest entered) stoppedLate).shared.state := by
  refine ⟨⟨entered_entered none (by simp [failedPool]) (by simp [failedPool]), ⟨_, rfl, rfl⟩, ?_⟩,
    entered_entered none (by simp [stoppedLate, preparation, stopping, cancelledEnd])
      (by simp [stoppedLate, preparation, stopping, cancelledEnd]), ⟨_, rfl, rfl⟩, ?_⟩
  · intro hse
    cases hse.counter
  · intro hse
    cases hse.counter

def completed : List RunStep :=
  preparation ++ [.advance 0 .succeeds, .advance 0 .succeeds, .advance 0 .succeeds,
    .outside (.submit (.missionDone { id := "mission-1", runID := "run-1" })),
    .outside .fold, .outside .fold, .outside .fold,
    .advance 0 .succeeds, .advance 0 .succeeds, .advance 0 .succeeds, .advance 0 .succeeds,
    .advance 0 .succeeds]

/-- A child run gives back what it reserved of its parent's budget. -/
theorem completed_settled :
    (run (runSystem (child (some "p")) .plain {}) (launched (child (some "p")) entered)
        (completed.take 9)).shared.state.reserved = true ∧
      Settled (child (some "p")) firstRun (run (runSystem (child (some "p")) .plain {})
        (launched (child (some "p")) entered) completed).shared.state := by
  have entered : Entered (child (some "p")) .plain {} "run-1" firstRun entered completed := by
    refine entered_entered _ (by simp [completed, preparation]) fun x mem s => ?_
    simp only [completed, preparation, cons_append, nil_append, mem_cons,
      reduceCtorEq, Step.outside.injEq, not_mem_nil, false_or, or_false] at mem
    obtain rfl | rfl | rfl | rfl := mem <;> simp [Orderly, Launches]
  refine ⟨rfl, (endedRun_settled_iff entered rfl rfl).mpr ⟨rfl, ?_, ?_⟩⟩
  · rintro ⟨e, mem, fails⟩
    revert e
    decide
  · rw [← mem_cutShort_iff entered.whole]
    exact not_mem_nil

end Gibson.Runs
