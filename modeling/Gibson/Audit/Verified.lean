import Gibson.Audit.Sound

/-! The verifier reads the anchor and the rows in two statements; retention may come between. -/

namespace Gibson.Audit

open Requests Interleaving Calls List

section
variable {sha256 : Bytes → Bytes} {tenantID : Bytes}

def Progress (sha256 : Bytes → Bytes) (tenantID : Bytes) (past : History Request Reply)
    (rest : Prog Outcome) : Prop :=
  (past = [] ∧ rest = Operation.verifyChain.body sha256 tenantID) ∨
    (∃ count k, past = [⟨.countUnchained, .ok count⟩] ∧ rest = .ask (.readAnchor none) k ∧
      ∀ stored, k stored = (match stored with
        | .error e => .done (.verified (.error e))
        | .ok stored => .verified <$> verifyFrom sha256 tenantID count (chainAnchor stored))) ∨
    (∃ count stored anchor, chainAnchor stored = .ok anchor ∧
      past = [⟨.readAnchor none, .ok stored⟩, ⟨.countUnchained, .ok count⟩] ∧
      rest = .verified <$> verifyFrom sha256 tenantID count (.ok anchor)) ∨
    (∃ count stored anchor rows, chainAnchor stored = .ok anchor ∧
      past = [⟨.readRows, .ok rows⟩, ⟨.readAnchor none, .ok stored⟩, ⟨.countUnchained, .ok count⟩] ∧
      rest = .done (.verified (.ok (verifyReport sha256 tenantID count anchor rows)))) ∨
    ∃ e, rest = .done (.verified (.error e))

lemma follows_progress (hfol : Follows (Operation.verifyChain.body sha256 tenantID) pa rest) :
    Progress sha256 tenantID pa rest := by
  induction hfol with
  | start => exact .inl ⟨rfl, rfl⟩
  | @next pa q k r _ ih =>
    rcases ih with ⟨rfl, body⟩ | ⟨count, k', rfl, asks, hon⟩ |
      ⟨count, hst, anchor, start, rfl, asks⟩ | ⟨_, _, _, _, _, _, hdn⟩ | ⟨e, hdn⟩
    · by_cases hem : tenantID = []
      · simp only [Operation.body, verify, hem, if_true] at body
        cases body
      simp only [Operation.body, verify, hem, if_false] at body
      cases body
      cases r with
      | error e => exact .inr (.inr (.inr (.inr ⟨e, rfl⟩)))
      | ok count =>
        refine .inr (.inl ⟨count, _, rfl, rfl, fun hst => ?_⟩)
        cases hst <;> rfl
    · cases asks
      cases r with
      | error e => exact .inr (.inr (.inr (.inr ⟨e, hon (.error e)⟩)))
      | ok hst =>
        rw [hon (.ok hst)]
        show Progress sha256 tenantID _
          (.verified <$> verifyFrom sha256 tenantID count (chainAnchor hst))
        cases start : chainAnchor hst with
        | error e => exact .inr (.inr (.inr (.inr ⟨e, rfl⟩)))
        | ok anchor => exact .inr (.inr (.inl ⟨count, hst, anchor, start, rfl, rfl⟩))
    · cases asks
      cases r with
      | error e => exact .inr (.inr (.inr (.inr ⟨e, rfl⟩)))
      | ok rows =>
        exact .inr (.inr (.inr (.inl ⟨count, hst, anchor, rows, start, rfl, rfl⟩)))
    · cases hdn
    · cases hdn

lemma verify_begins (sha256 : Bytes → Bytes) (tenantID) :
    (∃ e, Operation.verifyChain.body sha256 tenantID = .done (.verified (.error e))) ∨
      ∃ k, Operation.verifyChain.body sha256 tenantID = .ask .countUnchained k := by
  by_cases hem : tenantID = [] <;>
    simp only [Operation.body, verify, hem, if_true, if_false]
  · exact .inl ⟨_, rfl⟩
  · exact .inr ⟨_, rfl⟩

lemma Progress.asked_anchor {k : Reply (.readAnchor none) → Prog Outcome}
    (hpgr : Progress sha256 tenantID past rest) (hax : rest = .ask (.readAnchor none) k) :
    ∃ ct, past = [⟨.countUnchained, .ok ct⟩] := by
  subst hax
  rcases hpgr with ⟨-, bd⟩ | ⟨ct, _, hsn, -⟩ | ⟨_, _, _, _, _, hax⟩ |
    ⟨_, _, _, _, _, _, hdn⟩ | ⟨e, hdn⟩
  · rcases verify_begins sha256 tenantID with ⟨e, is⟩ | ⟨k, is⟩ <;> cases bd.trans is
  · exact ⟨ct, hsn⟩
  · cases hax
  · cases hdn
  · cases hdn

lemma Progress.asked_rows {k : Reply .readRows → Prog Outcome}
    (hpgr : Progress sha256 tenantID past rest) (hax : rest = .ask .readRows k) :
    ∃ ct hst anc, chainAnchor hst = .ok anc ∧
      past = [⟨.readAnchor none, .ok hst⟩, ⟨.countUnchained, .ok ct⟩] := by
  subst hax
  rcases hpgr with ⟨-, bd⟩ | ⟨_, _, _, hax, _⟩ | ⟨ct, hst, anc, s0, hsn, -⟩ |
    ⟨_, _, _, _, _, _, hdn⟩ | ⟨e, hdn⟩
  · rcases verify_begins sha256 tenantID with ⟨e, is⟩ | ⟨k, is⟩ <;> cases bd.trans is
  · cases hax
  · exact ⟨ct, hst, anc, s0, hsn⟩
  · cases hdn
  · cases hdn

lemma Answer.eq_of_reply {a : Answer} {x y : α} (ok : a.reply x = .ok y) : x = y := by
  cases a with
  | served => exact Except.ok.inj ok
  | refused | lost => cases ok

/-- A verification that has its rows reports on the anchor and the rows that it read. -/
lemma reported (hpgr : Progress sha256 tenantID past (.done (.verified (.ok report)))) :
    ∃ count stored anchor rows, chainAnchor stored = .ok anchor ∧
      past = [⟨.readRows, .ok rows⟩, ⟨.readAnchor none, .ok stored⟩, ⟨.countUnchained, .ok count⟩] ∧
      report = verifyReport sha256 tenantID count anchor rows := by
  rcases hpgr with ⟨-, bd⟩ | ⟨_, _, _, hax, _⟩ | ⟨_, _, _, _, _, hax⟩ |
    ⟨count, stored, anchor, rows, start, seen, hdn⟩ | ⟨e, hdn⟩
  · rcases verify_begins sha256 tenantID with ⟨e, is⟩ | ⟨k, is⟩ <;> cases bd.trans is
  · cases hax
  · cases hax
  · cases hdn
    exact ⟨count, stored, anchor, rows, start, seen, rfl⟩
  · cases hdn

/-- A sound log is a linked run from its own anchor, and from another one only if it is empty. -/
lemma Sound.linked_iff {db} (hso : Sound sha256 tenantID tenantPath db)
    {stored anchor} (s0 : chainAnchor stored = .ok anchor) :
    Linked sha256 anchor.firstSeq anchor.prevHash (db.log tenantID) ↔
      db.log tenantID = [] ∨ chainAnchor db.anchor = chainAnchor stored := by
  have hlin := hso.linked_log
  constructor
  · intro rd
    cases rw0 : db.log tenantID with
    | nil => exact .inl rfl
    | cons r rs =>
      rw [rw0] at rd hlin
      refine .inr ?_
      rw [hso.anchored, s0, ← hlin.1, ← hlin.2.1, rd.1, rd.2.1]
  · rintro (hem | same)
    · rw [hem]
      trivial
    rw [hso.anchored, s0] at same
    cases same
    exact hlin

end

/-- The stored log is always a gapless linked run from its anchor. A verification finds it intact
exactly if it read no rows, or its anchor was still the current one when it read them. -/
theorem untampered_log_verifies_iff (sha256 : Bytes → Bytes) (tenantID : Bytes)
    (tenantPath : List Char) (old : List StoredRow) (unchained : ∀ r ∈ old, r.chainSeq = none) :
    let at' (steps : List AuditStep) :=
      run (auditSystem sha256 tenantID tenantPath) { shared := ⟨freshLog old, []⟩ } steps
    (∀ steps, ∃ anchor, chainAnchor (at' steps).shared.state.anchor = .ok anchor ∧
      Linked sha256 anchor.firstSeq anchor.prevHash
        (chained tenantID (at' steps).shared.state.rows)) ∧
    ∀ before i x mid y c₁ c₂ c₃ k₁ k₂ report,
      (at' before).calls[i]? = some c₁ → c₁.op = .verifyChain →
      c₁.rest = .ask (.readAnchor none) k₁ →
      (at' (before ++ .advance i x :: mid)).calls[i]? = some c₂ → c₂.rest = .ask .readRows k₂ →
      (at' (before ++ .advance i x :: mid ++ [.advance i y])).calls[i]? = some c₃ →
      c₃.rest = .done (.verified (.ok report)) →
      (report.chainBreak = .intact ↔
        chained tenantID (at' (before ++ .advance i x :: mid)).shared.state.rows = [] ∨
        chainAnchor (at' (before ++ .advance i x :: mid)).shared.state.anchor =
          chainAnchor (at' before).shared.state.anchor) := by
  intro at'
  have sound (steps : List AuditStep) : Sound sha256 tenantID tenantPath (at' steps).shared.state :=
    (sound_run unchained steps).1.1
  have progress {steps} {i : Nat} {c} (call : (at' steps).calls[i]? = some c)
      (op : c.op = .verifyChain) : Progress sha256 tenantID c.past c.rest := by
    have follows := follows_run (b := Operation.body sha256 tenantID)
      (f := serve tenantID tenantPath) (g := change) steps (fun i c none => by simp at none) call
    rw [op] at follows
    exact follows_progress follows
  refine ⟨fun steps => ⟨_, (sound steps).anchored, ?_⟩, ?_⟩
  · rw [(sound steps).chained_eq]
    exact (sound steps).linked_log
  intro before i x mid y c₁ c₂ c₃ k₁ k₂ report call₁ op asks₁ call₂ asks₂ call₃ done
  obtain ⟨count, seen₁⟩ := (progress call₁ op).asked_anchor asks₁
  -- the first request, after which the call is at the second one until it makes it
  have moved : (at' (before ++ [.advance i x])).calls[i]? = some ⟨c₁.op,
      ⟨.readAnchor none, x.reply (at' before).shared.state.anchor⟩ :: c₁.past, k₁ _⟩ :=
    advance_ask call₁ asks₁ rfl
  obtain ⟨c, here, sameOp, suffix⟩ := past_run (b := Operation.body sha256 tenantID)
    (f := serve tenantID tenantPath) (g := change) mid moved
  have there : at' (before ++ .advance i x :: mid) =
      run (auditSystem sha256 tenantID tenantPath) (at' (before ++ [.advance i x])) mid := by
    rw [← run_append, append_assoc, singleton_append]
  rw [there] at call₂
  obtain rfl : c = c₂ := Option.some.inj (here.symm.trans call₂)
  rw [← there] at call₂
  obtain ⟨count', stored, anchor, start, seen₂⟩ := (progress call₂ (sameOp.trans op)).asked_rows asks₂
  have same := suffix.eq_of_length (by simp [seen₁, seen₂])
  rw [seen₂] at same
  obtain ⟨reply, -⟩ := cons.inj same
  have anchored :=
    Answer.eq_of_reply (eq_of_heq (Sigma.mk.inj reply).2)
  -- the second request
  have last := advance_ask call₂ asks₂ (f := serve tenantID tenantPath) (a := y) rfl
  cases last.symm.trans call₃
  obtain ⟨count'', stored', anchor', rows, start', seen₃, rfl⟩ :=
    reported (done ▸ progress call₃ (sameOp.trans op))
  obtain ⟨readRows, tail⟩ := cons.inj seen₃
  rw [seen₂] at tail
  have read : chained tenantID (at' (before ++ .advance i x :: mid)).shared.state.rows = rows :=
    Answer.eq_of_reply (eq_of_heq (Sigma.mk.inj readRows).2)
  cases eq_of_heq (Sigma.mk.inj (cons.inj tail).1).2
  cases start.symm.trans start'
  have current := sound (before ++ .advance i x :: mid)
  rw [verifyReport_intact, ← read, current.chained_eq, anchored]
  exact current.linked_iff start

def verdict (c : Call Operation Request Reply Outcome) : Option ChainBreak :=
  match c.rest with
  | .done (.verified (.ok report)) => some report.chainBreak
  | _ => none

/-- Two rows are written and exported, retention deletes the first, and a verification starts. -/
def prunedSteps : List AuditStep :=
  .start (.insert [⟨[97], [], [120], [], [], [], []⟩, ⟨[98], [], [121], [], [], [], []⟩] 5) ::
    served 0 5 ++ .start (.exportTenantOnce 1) :: served 1 7 ++
    .start (.pruneTenant 9) :: served 2 4 ++ .start .verifyChain :: served 3 1

theorem untampered_log_verifies_iff_pruned :
    let at' := run (auditSystem zeroHash [116] []) { shared := ⟨freshLog [], []⟩ }
    (chained [116] (at' prunedSteps).shared.state.rows).map (·.seq) = [2] ∧
      (at' (prunedSteps ++ served 3 2)).calls[3]?.bind verdict = some .intact := by
  intro at'
  obtain ⟨c₁, k₁, call₁, op, asks₁⟩ : ∃ c k, (at' prunedSteps).calls[3]? = some c ∧
      c.op = .verifyChain ∧ c.rest = .ask (.readAnchor none) k := ⟨_, _, rfl, rfl, rfl⟩
  obtain ⟨c₂, k₂, call₂, asks₂⟩ : ∃ c k, (at' (prunedSteps ++ served 3 1)).calls[3]? = some c ∧
      c.rest = .ask .readRows k := ⟨_, _, rfl, rfl⟩
  obtain ⟨c₃, report, call₃, hdn⟩ : ∃ c r, (at' (prunedSteps ++ served 3 2)).calls[3]? = some c ∧
      c.rest = .done (.verified (.ok r)) := ⟨_, _, rfl, rfl⟩
  have intact := ((untampered_log_verifies_iff zeroHash [116] [] [] (by simp)).2 prunedSteps 3
    .served [] .served c₁ c₂ c₃ k₁ k₂ report call₁ op asks₁ call₂ asks₂ call₃ hdn).mpr (.inr rfl)
  refine ⟨rfl, ?_⟩
  rw [call₃, Option.bind_some, verdict, hdn]
  exact congrArg some intact

/-- Retention deletes the first row between the two statements. -/
theorem pruned_meanwhile_reported_missing :
    ((run (auditSystem zeroHash [116] []) { shared := ⟨freshLog [], []⟩ }
      pruningSteps).calls[2]?.bind verdict) = some .missing := by
  decide +kernel

end Gibson.Audit
