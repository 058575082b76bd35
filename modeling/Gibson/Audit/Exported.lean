import Gibson.Audit.Sound

/-! Nothing that retention deletes is lost: it is in the bucket, under the name of one range. -/

namespace Gibson.Audit

open List Requests Interleaving Calls Option

lemma position_eq (hpo : 1 ≤ v) : position v = Framing.padded 20 v.toNat :=
  if_neg (by omega)

lemma exportObjectKey_inj (ha : 1 ≤ a) (hb : 1 ≤ b) (hc : 1 ≤ c) (hd : 1 ≤ d)
    (hs : exportObjectKey tenantPath a b = exportObjectKey tenantPath c d) : a = c ∧ b = d := by
  have tail := (List.cons.inj (append_cancel_left hs)).2
  rw [position_eq ha, position_eq hb, position_eq hc, position_eq hd] at tail
  have digits (v : Int) : ∀ ch ∈ Framing.padded 20 v.toNat, Char.isDigit ch = true :=
    fun _ => Framing.isDigit_of_mem_padded
  have dash (rs : List Char) : ∀ ch ∈ ('-' :: rs).head?, Char.isDigit ch = false := by
    intro ch hd0
    obtain rfl : '-' = ch := by simpa using hd0
    decide
  have dot : ∀ ch ∈ ".ndjson".toList.head?, Char.isDigit ch = false := by
    intro ch hd0
    obtain rfl : '.' = ch := some.inj hd0
    decide
  obtain ⟨h1, rs⟩ :=
    Framing.append_inj_of_stop (digits a) (digits c) (dash _) (dash _) tail
  obtain ⟨hlt, -⟩ :=
    Framing.append_inj_of_stop (digits b) (digits d) dot dot (List.cons.inj rs).2
  have fir := Framing.padded_injective 20 h1
  have las := Framing.padded_injective 20 hlt
  omega

variable {ranges : List (Int × Int)} {upTo : Int}

section
variable (hcov : Covers ranges upTo)
include hcov

lemma Covers.nonneg : 0 ≤ upTo := by
  induction ranges generalizing upTo with
  | nil => exact le_of_eq hcov.symm
  | cons range rs ih =>
    obtain ⟨h1, hlt⟩ := range
    obtain ⟨rfl, hrd, hbe⟩ := hcov
    have := ih hbe
    omega

/-- A position up to the end is in some range, and no other is. -/
lemma Covers.mem_iff (p : Int) :
    (∃ range ∈ ranges, range.1 ≤ p ∧ p ≤ range.2) ↔ 1 ≤ p ∧ p ≤ upTo := by
  induction ranges generalizing upTo with
  | nil =>
    obtain rfl : upTo = 0 := hcov
    simp only [not_mem_nil, false_and, exists_const, false_iff]
    omega
  | cons range rs ih =>
    obtain ⟨h1, hlt⟩ := range
    obtain ⟨rfl, hrd, hbe⟩ := hcov
    have s0 := hbe.nonneg
    have hea := ih hbe
    simp only [mem_cons, exists_eq_or_imp, hea]
    omega

lemma Covers.pairwise : ranges.Pairwise fun a b => b.2 < a.1 := by
  induction ranges generalizing upTo with
  | nil => exact .nil
  | cons range rs ih =>
    obtain ⟨h1, hlt⟩ := range
    obtain ⟨rfl, hrd, hbe⟩ := hcov
    refine .cons (fun ho mem => ?_) (ih hbe)
    -- the end of an earlier range is a position that the earlier ranges cover
    have all : ∀ range ∈ rs, range.1 ≤ range.2 := by
      clear ih hrd
      generalize h1 - 1 = upTo at hbe
      clear mem ho
      induction rs generalizing upTo with
      | nil => simp
      | cons r rs ih =>
        obtain ⟨lo, hi⟩ := r
        obtain ⟨rfl, hrd, hbe⟩ := hbe
        rw [forall_mem_cons]
        exact ⟨hrd, ih _ hbe⟩
    have hi0 := (hbe.mem_iff ho.2).mp ⟨ho, mem, all ho mem, Int.le_refl _⟩
    omega

/-- One range for one position. -/
lemma Covers.unique (memA : a ∈ ranges)
    (memB : b ∈ ranges) (inA : a.1 ≤ p ∧ p ≤ a.2) (inB : b.1 ≤ p ∧ p ≤ b.2) : a = b := by
  induction ranges generalizing upTo with
  | nil => cases memA
  | cons range rs ih =>
    obtain ⟨rfl, hrd, hbe⟩ := hcov
    have hea {r} (mem : r ∈ rs) (hi : r.1 ≤ p ∧ p ≤ r.2) : p < range.1 := by
      have hbd := ((hbe.mem_iff p).mp ⟨r, mem, hi⟩).2
      omega
    rcases mem_cons.mp memA with rfl | oldA <;> rcases mem_cons.mp memB with rfl | oldB
    · rfl
    · have := hea oldB inB
      omega
    · have := hea oldA inA
      omega
    · exact ih hbe oldA oldB

end

def Database.lastBody (db : Database) (key : List Char) : Option (List ChainRow) :=
  (db.bucket.find? (·.1 = key)).map Prod.snd

def Database.Archives (db : Database) (tenantPath : List Char) (range : Int × Int) (r : ChainRow) :
    Prop :=
  ∃ body, db.lastBody (exportObjectKey tenantPath range.1 range.2) = some body ∧ r ∈ body

section
variable {sha256 : Bytes → Bytes} {tenantID : Bytes} {tenantPath : List Char} {db : Database}
variable {range : Int × Int}

section
variable (sound : Sound sha256 tenantID tenantPath db)
include sound

lemma Sound.mem_range (mem : range ∈ db.ranges) : 1 ≤ range.1 ∧ 1 ≤ range.2 := by
  obtain ⟨bd, put⟩ := sound.stored range mem
  have hrd : range.1 ≤ range.2 := by
    obtain ⟨hb, ha, hsha⟩ := append_of_mem mem
    have hcvd := sound.covered
    rw [hsha] at hcvd
    clear hsha put bd mem
    generalize db.exported = upTo at hcvd
    induction hb generalizing upTo with
    | nil => exact hcvd.2.1
    | cons r hb ih => exact ih _ hcvd.2.2
  have h1 := ((sound.covered.mem_iff range.1).mp ⟨range, mem, Int.le_refl _, hrd⟩).1
  omega

/-- The body under the name of an exported range is that range of what was written. -/
lemma Sound.lastBody_eq (mem : range ∈ db.ranges) :
    db.lastBody (exportObjectKey tenantPath range.1 range.2) =
      some (between range.1 range.2 (db.written tenantID)) := by
  obtain ⟨bd, put⟩ := sound.stored range mem
  obtain ⟨hf, hh⟩ := isSome_iff_exists.mp (List.find?_isSome.mpr
    ⟨_, put, by simp⟩ : (db.bucket.find? (·.1 = exportObjectKey tenantPath range.1 range.2)).isSome)
  have key : hf.1 = exportObjectKey tenantPath range.1 range.2 := by
    simpa using List.find?_some hh
  obtain ⟨h1, hlt, name, hpo, hrd, -, sli⟩ :=
    sound.bodies hf (mem_of_find?_eq_some hh)
  have bounds := sound.mem_range mem
  obtain ⟨rfl, rfl⟩ := exportObjectKey_inj hpo (by omega) bounds.1 bounds.2
    (name.symm.trans key)
  rw [Database.lastBody, hh, map_some, sli]

lemma Sound.archives_iff (mem : range ∈ db.ranges) (hw : r ∈ db.written tenantID) :
    db.Archives tenantPath range r ↔ range.1 ≤ r.seq ∧ r.seq ≤ range.2 := by
  simp [Database.Archives, sound.lastBody_eq mem, between, hw]

end
end

/-- The cursor never goes back. -/
lemma exported_mono {sha256 : Bytes → Bytes}
    (huc : ∀ r ∈ old, r.chainSeq = none) (before ha) :
    (run (auditSystem sha256 tenantID tenantPath) { shared := ⟨freshLog old, []⟩ }
      before).shared.state.exported ≤
    (run (auditSystem sha256 tenantID tenantPath) { shared := ⟨freshLog old, []⟩ }
      (before ++ ha)).shared.state.exported := by
  induction ha using reverseRecOn with
  | nil => rw [append_nil]
  | append_singleton ha x ih =>
    rw [← append_assoc, run_append_singleton]
    refine le_trans ih ?_
    obtain ⟨alo, hlaw⟩ :=
      @sound_run sha256 tenantID tenantPath old huc (before ++ ha)
    obtain hs | ⟨e, -, hs⟩ | ⟨i, a, c, q, nx, st, r, -, cl, rs, han, hs⟩ :=
      step_shared (b := Operation.body sha256 tenantID) (f := serve tenantID tenantPath)
        (g := change) (run (auditSystem sha256 tenantID tenantPath)
          { shared := ⟨freshLog old, []⟩ } (before ++ ha)) x
    · exact le_of_eq (congrArg (fun s => s.state.exported) hs).symm
    · refine le_trans (along_drop alo e).1.exported ?_
      exact le_of_eq (congrArg (fun s => s.state.exported) hs).symm
    obtain ⟨-, hob, hsn⟩ := hlaw i c cl
    rw [rs] at hob
    refine le_trans (@along_served _ _ _ _ _ _ _ _ c.op _ alo hob.1 hsn han).1.exported ?_
    exact le_of_eq (congrArg (fun s => s.state.exported) hs).symm

/-- A row that retention deleted is in the body of exactly one exported range; the exported ranges
are apart and cover the positions up to the cursor, which only grows. -/
theorem retention_loses_nothing (sha256 : Bytes → Bytes) (tenantID : Bytes) (tenantPath : List Char)
    (old : List StoredRow) (unchained : ∀ r ∈ old, r.chainSeq = none) (steps : List AuditStep) :
    let at' (steps : List AuditStep) : Database :=
      (run (auditSystem sha256 tenantID tenantPath) { shared := ⟨freshLog old, []⟩ }
        steps).shared.state
    (∀ r ∈ (at' steps).deleted, ∃ range ∈ (at' steps).ranges,
      (at' steps).Archives tenantPath range r ∧
      ∀ other ∈ (at' steps).ranges, (at' steps).Archives tenantPath other r → other = range) ∧
    (at' steps).ranges.Pairwise (fun a b => b.2 < a.1) ∧
    (∀ p, (∃ range ∈ (at' steps).ranges, range.1 ≤ p ∧ p ≤ range.2) ↔
      1 ≤ p ∧ p ≤ (at' steps).exported) ∧
    ∀ before after, steps = before ++ after → (at' before).exported ≤ (at' steps).exported := by
  intro at'
  have sound : Sound sha256 tenantID tenantPath (at' steps) := (sound_run unchained steps).1.1
  refine ⟨fun r mem => ?_, sound.covered.pairwise, sound.covered.mem_iff, ?_⟩
  · have written : r ∈ (at' steps).written tenantID := mem_append_left _ mem
    have bound := ((linked_append.mp sound.linked).1).bounds mem
    have retained := sound.retained
    obtain ⟨range, inRanges, inside⟩ := (sound.covered.mem_iff r.seq).mpr ⟨by omega, by omega⟩
    refine ⟨range, inRanges, (sound.archives_iff inRanges written).mpr inside, ?_⟩
    intro other inOther archives
    exact sound.covered.unique inOther inRanges
      ((sound.archives_iff inOther written).mp archives) inside
  · rintro before after rfl
    exact exported_mono unchained before after

/-- The first of two rows, exported on its own and then deleted. -/
theorem retention_loses_nothing_pruned :
    let db := (run (auditSystem zeroHash [116] []) { shared := ⟨freshLog [], []⟩ }
      pruningSteps).shared.state
    ∃ r ∈ db.deleted, ∃ range ∈ db.ranges, db.Archives [] range r :=  by
  intro db
  have deleted : (db.deleted.head?).isSome = true := by decide +kernel
  obtain ⟨r, first⟩ := isSome_iff_exists.mp deleted
  have mem := mem_of_head? first
  obtain ⟨range, inRanges, archived, -⟩ :=
    (retention_loses_nothing zeroHash [116] [] [] (by simp) pruningSteps).1 r mem
  exact ⟨r, mem, range, inRanges, archived⟩

end Gibson.Audit
