import Gibson.Lib.Interleaving
import Gibson.Lib.Requests

/-! Programs as concurrent calls. A server answers each request from a shared state, or lets it
wait; the trace keeps who asked for what and what the answer was. -/

namespace Gibson.Calls

open List Interleaving Requests

/-- A call in flight: what was asked for, the requests made so far and what is left to do. -/
structure Call (O Q : Type) (R : Q → Type) (α : Type) where
  op : O
  past : History Q R := []
  rest : Program Q R α

/-- The state of the server and every request that was answered, the last one first. -/
structure Served (S O Q : Type) (R : Q → Type) where
  state : S
  trace : List (O × Σ q, R q) := []

variable {S O Q A E : Type} {R : Q → Type} {α : Type}

/-- The next request of a call. A request that is not answered waits. -/
def advance (serve : S → (q : Q) → A → Option (S × R q)) (s : Served S O Q R)
    (c : Call O Q R α) (a : A) : Served S O Q R × Call O Q R α :=
  match c.rest with
  | .done _ => (s, c)
  | .ask q next =>
    match serve s.state q a with
    | none => (s, c)
    | some (state, r) =>
      (⟨state, (c.op, ⟨q, r⟩) :: s.trace⟩, ⟨c.op, ⟨q, r⟩ :: c.past, next r⟩)

def system (body : O → Program Q R α) (serve : S → (q : Q) → A → Option (S × R q))
    (outside : S → E → S) : System (Served S O Q R) O (Call O Q R α) A E where
  enter op := { op, rest := body op }
  advance := advance serve
  outside s e := { s with state := outside s.state e }

/-- A program on its own, each of its requests answered the same way; nothing is returned if a
request waits. -/
def alone (serve : S → (q : Q) → A → Option (S × R q)) (a : A) (s : S) :
    Program Q R α → Option (S × α)
  | .done x => some (s, x)
  | .ask q next => (serve s q a).bind fun answer => alone serve a answer.1 (next answer.2)

section
variable {b : O → Program Q R α} {f : S → (q : Q) → A → Option (S × R q)}
  {g : S → E → S}
variable {s : S}

lemma alone_bind (p : Program Q R β) (k : β → Program Q R α) :
    alone f a s (p >>= k) = (alone f a s p).bind fun x => alone f a x.1 (k x.2) := by
  induction p generalizing s with
  | done x => rfl
  | ask q nx ih =>
    show ((f s q a).bind fun an => alone f a an.1 (nx an.2 >>= k)) = _
    simp only [alone, ih, Option.bind_assoc]

lemma advance_cases (s : Served S O Q R) (c : Call O Q R α) (a) : advance f s c a = (s, c) ∨
      ∃ q nx state r, c.rest = .ask q nx ∧ f s.state q a = some (state, r) ∧ advance f s c a =
          (⟨state, (c.op, ⟨q, r⟩) :: s.trace⟩, ⟨c.op, ⟨q, r⟩ :: c.past, nx r⟩) := by
  unfold advance
  cases c.rest with
  | done x => exact .inl rfl
  | ask q nx =>
    cases han : f s.state q a with
    | none => exact .inl (by simp only [han])
    | some an =>
      exact .inr ⟨q, nx, an.1, an.2, rfl, han, by simp only [han]⟩

lemma step_shared (w : World (Served S O Q R) (Call O Q R α)) (x : Step O A E) :
    (step (system b f g) w x).shared = w.shared ∨
      (∃ e, x = .outside e ∧ (step (system b f g) w x).shared =
        { w.shared with state := g w.shared.state e }) ∨
      ∃ i a c q nx state r, x = .advance i a ∧ w.calls[i]? = some c ∧ c.rest = .ask q nx ∧
        f w.shared.state q a = some (state, r) ∧
        (step (system b f g) w x).shared = ⟨state, (c.op, ⟨q, r⟩) :: w.shared.trace⟩ := by
  cases x with
  | start op => exact .inl rfl
  | outside e => exact .inr (.inl ⟨e, rfl, rfl⟩)
  | advance i a =>
    simp only [step]
    cases cl : w.calls[i]? with
    | none => exact .inl rfl
    | some c =>
      obtain hs | ⟨q, nx, state, r, rs, han, hm⟩ :=
        advance_cases (f := f) w.shared c a
      · exact .inl (congrArg Prod.fst hs)
      · exact .inr (.inr ⟨i, a, c, q, nx, state, r, rfl, cl, rs, han,
          congrArg Prod.fst hm⟩)

variable {I : Served S O Q R → Prop} {V : (q : Q) → R q → Prop}
  {P : O → History Q R → Q → Prop} {T : O → α → Prop}

/-- A call in flight has obeyed its rules so far and will go on to. -/
structure Lawful (L : O → Prop) (V : (q : Q) → R q → Prop) (P : O → History Q R → Q → Prop)
    (T : O → α → Prop) (s : Served S O Q R) (c : Call O Q R α) : Prop where
  allowed : L c.op
  obeys : Obeys V (P c.op) (T c.op) c.past c.rest
  traced : ∀ e ∈ c.past, (c.op, e) ∈ s.trace

lemma trace_step (w : World (Served S O Q R) (Call O Q R α)) (x : Step O A E)
    (mem : e ∈ w.shared.trace) : e ∈ (step (system b f g) w x).shared.trace := by
  obtain hs | ⟨_, _, hs⟩ | ⟨_, _, _, _, _, _, _, _, _, _, _, hs⟩ :=
    step_shared (b := b) (f := f) (g := g) w x
  · rwa [hs]
  · rwa [hs]
  · rw [hs]
    exact mem_cons_of_mem _ mem

section
variable {L : O → Prop} {w : World (Served S O Q R) (Call O Q R α)} {n : Nat}
  (hlaw : ∀ i c, n ≤ i → w.calls[i]? = some c → Lawful L V P T w.shared c)
  (hv : ∀ s op past q a state r, L op → I s → P op past q → (∀ e ∈ past, (op, e) ∈ s.trace) →
    f s.state q a = some (state, r) → V q r ∧ I ⟨state, (op, ⟨q, r⟩) :: s.trace⟩)
include hlaw hv

lemma invariant_step (inv : I w.shared)
    (os : ∀ s op q a state r, 0 < n → I s → f s.state q a = some (state, r) →
      I ⟨state, (op, ⟨q, r⟩) :: s.trace⟩)
    (out : ∀ s e, I s → I { s with state := g s.state e }) (x : Step O A E) :
    I (step (system b f g) w x).shared := by
  obtain hs | ⟨e, _, hs⟩ | ⟨i, a, c, q, nx, state, r, _, cl, rs, han, hs⟩ :=
    step_shared (b := b) (f := f) (g := g) w x
  · rwa [hs]
  · rw [hs]
    exact out _ e inv
  rw [hs]
  by_cases hwa : n ≤ i
  · obtain ⟨fair, hob, hsn⟩ := hlaw i c hwa cl
    rw [rs] at hob
    exact (hv _ _ _ _ _ _ _ fair inv hob.1 hsn han).2
  · exact os _ _ _ _ _ _ (by omega) inv han

lemma lawful_step (inv : I w.shared) (bod : ∀ op, L op → Obeys V (P op) (T op) [] (b op))
    (hal : ∀ op, x = .start op → L op) (hwa : n ≤ i)
    (cl : (step (system b f g) w x).calls[i]? = some c) :
    Lawful L V P T (step (system b f g) w x).shared c := by
  obtain ⟨old, -⟩ | ⟨op, rfl, -, rfl⟩ | ⟨a, hb, rfl, old, rfl⟩ := calls_step cl
  · obtain ⟨fair, hob, hsn⟩ := hlaw i c hwa old
    exact ⟨fair, hob, fun e mem => trace_step w x (hsn e mem)⟩
  · exact ⟨hal op rfl, bod op (hal op rfl), by simp [system]⟩
  obtain ⟨fair, hob, hsn⟩ := hlaw i hb hwa old
  have shared : (step (system b f g) w (.advance i a)).shared =
      (advance f w.shared hb a).1 := congrArg World.shared (step_advance_some old a)
  obtain hs | ⟨q, nx, state, r, rs, han, hm⟩ :=
    advance_cases (f := f) w.shared hb a
  · rw [show (system b f g).advance w.shared hb a = _ from hs]
    exact ⟨fair, hob, fun e mem => trace_step w _ (hsn e mem)⟩
  · rw [rs] at hob
    have hva := (hv _ _ _ _ _ _ _ fair inv hob.1 hsn han).1
    rw [shared, show ((system b f g).advance w.shared hb a) = _ from hm, hm]
    refine ⟨fair, hob.2 r hva, fun e mem => ?_⟩
    obtain rfl | mem := mem_cons.mp mem
    · exact mem_cons_self
    · exact mem_cons_of_mem _ (hsn e mem)

end

lemma length_calls_step (w : World (Served S O Q R) (Call O Q R α)) (x : Step O A E) :
    w.calls.length ≤ (step (system b f g) w x).calls.length := by
  cases x with
  | start op => simp [step]
  | outside e => exact Nat.le_refl _
  | advance i a =>
    simp only [step]
    cases w.calls[i]? with
    | none => exact Nat.le_refl _
    | some c => simp

inductive Follows (p : Program Q R α) : History Q R → Program Q R α → Prop
  | start : Follows p [] p
  | next {past : History Q R} {q : Q} {k : R q → Program Q R α} (r : R q) :
    Follows p past (.ask q k) → Follows p (⟨q, r⟩ :: past) (k r)

variable {p : Program Q R α}

lemma Follows.obeys {V : (q : Q) → R q → Prop} {P : History Q R → Q → Prop} {T : α → Prop}
    (hfol : Follows p past rest)
    (hob : Obeys V P T [] p) (hva : ∀ e ∈ past, V e.1 e.2) : Obeys V P T past rest := by
  induction hfol with
  | start => exact hob
  | next r _ ih =>
    exact (ih fun e mem => hva e (mem_cons_of_mem _ mem)).2 r (hva _ mem_cons_self)

lemma advance_past (s : Served S O Q R) (c : Call O Q R α) (a) :
    (advance f s c a).2.op = c.op ∧ c.past <:+ (advance f s c a).2.past := by
  obtain hs | ⟨q, nx, state, r, -, -, hm⟩ := advance_cases (f := f) s c a
  · rw [hs]
    exact ⟨rfl, suffix_refl _⟩
  · rw [hm]
    exact ⟨rfl, suffix_cons _ _⟩

variable {c : Call O Q R α}
variable {w : World (Served S O Q R) (Call O Q R α)} {i : Nat}

lemma follows_run (ss : List (Step O A E))
    (calls : ∀ (i : Nat) (c : Call O Q R α), w.calls[i]? = some c → Follows (b c.op) c.past c.rest)
    (cl : (run (system b f g) w ss).calls[i]? = some c) : Follows (b c.op) c.past c.rest := by
  induction ss using reverseRecOn generalizing c with
  | nil => exact calls i c cl
  | append_singleton hb x ih =>
    rw [run_append_singleton] at cl
    obtain ⟨old, -⟩ | ⟨op, -, -, rfl⟩ | ⟨a, d, -, old, rfl⟩ := calls_step cl
    · exact ih old
    · exact .start
    show Follows (b (advance f _ d a).2.op) (advance f _ d a).2.past (advance f _ d a).2.rest
    obtain hs | ⟨q, nx, state, r, rs, -, hm⟩ := advance_cases (f := f) _ d a
    · rw [hs]
      exact ih old
    · rw [hm]
      exact .next r (rs ▸ ih old)

lemma past_run (ss : List (Step O A E)) (cl : w.calls[i]? = some c) :
    ∃ c', (run (system b f g) w ss).calls[i]? = some c' ∧ c'.op = c.op ∧ c.past <:+ c'.past := by
  induction ss using reverseRecOn with
  | nil => exact ⟨c, cl, rfl, suffix_refl _⟩
  | append_singleton hb x ih =>
    obtain ⟨d, hh, op, suf⟩ := ih
    rw [run_append_singleton]
    obtain ⟨e, ht, rfl | ⟨a, -, rfl⟩⟩ := @call_step _ _ _ _ _ (system b f g) _ _ _ x hh
    · exact ⟨e, ht, op, suf⟩
    obtain ⟨hs, lon⟩ :=
      advance_past (f := f) (run (system b f g) w hb).shared d a
    exact ⟨_, ht, hs.trans op, suf.trans lon⟩

lemma advance_ask {k : R q → Program Q R α}
    (cl : (run (system b f g) w steps).calls[i]? = some c) (hax : c.rest = .ask q k)
    (han : f (run (system b f g) w steps).shared.state q a = some (state, r)) :
    (run (system b f g) w (steps ++ [.advance i a])).calls[i]? =
      some ⟨c.op, ⟨q, r⟩ :: c.past, k r⟩ := by
  have hbd := (List.getElem?_eq_some_iff.mp cl).1
  rw [run_append_singleton, step_advance_some cl, List.getElem?_set_self hbd]
  show some (advance f _ c a).2 = _
  unfold advance
  rw [hax]
  simp only [han]

lemma lawful_run (ss : List (Step O A E)) {L : O → Prop} (s0 : I w.shared)
    (calls : ∀ i c, n ≤ i → w.calls[i]? = some c → Lawful L V P T w.shared c)
    (ct : n ≤ w.calls.length) (bod : ∀ op, L op → Obeys V (P op) (T op) [] (b op))
    (os : ∀ s op q a state r, 0 < n → I s → f s.state q a = some (state, r) → I ⟨state, (op,
      ⟨q, r⟩) :: s.trace⟩)
    (hv : ∀ s op past q a state r, L op → I s → P op past q → (∀ e ∈ past, (op, e) ∈ s.trace) →
      f s.state q a = some (state, r) → V q r ∧ I ⟨state, (op, ⟨q, r⟩) :: s.trace⟩)
    (out : ∀ s e, I s → I { s with state := g s.state e })
    (hal : ∀ op, .start op ∈ ss → L op) :
    I (run (system b f g) w ss).shared ∧
      (∀ i c, n ≤ i → (run (system b f g) w ss).calls[i]? = some c →
        Lawful L V P T (run (system b f g) w ss).shared c) ∧
      n ≤ (run (system b f g) w ss).calls.length := by
  induction ss using reverseRecOn with
  | nil => exact ⟨s0, calls, ct⟩
  | append_singleton hb x ih =>
    rw [run_append_singleton]
    obtain ⟨inv, hlaw, hbd⟩ := ih fun op mem => hal op (by simp [mem])
    refine ⟨invariant_step hlaw hv inv os out x, fun i c hwa cl => ?_,
      Nat.le_trans hbd (length_calls_step _ x)⟩
    exact lawful_step hlaw hv inv bod (fun op s0 => hal op (by simp [s0]))
      hwa cl

lemma Lawful.returned {L : O → Prop} {s : Served S O Q R} (hlaw : Lawful L V P T s c)
    (hre : c.rest = .done x) : T c.op x := by
  have hob := hlaw.obeys
  rwa [hre] at hob

/-- A program that runs with nobody else, each request answered in turn. -/
def solo (serve : S → (q : Q) → A → Option (S × R q)) :
    List A → S → Program Q R α → S × Program Q R α
  | [], s, p => (s, p)
  | _ :: _, s, .done x => (s, .done x)
  | a :: rest, s, .ask q next =>
    match serve s q a with
    | none => solo serve rest s (.ask q next)
    | some (s', r) => solo serve rest s' (next r)

def Ensures (serve : S → (q : Q) → A → Option (S × R q)) (Post : S → α → Prop) (s : S) :
    Program Q R α → Prop
  | .done x => Post s x
  | .ask q next => ∀ a s' r, serve s q a = some (s', r) → Ensures serve Post s' (next r)

lemma Ensures.solo {Post : S → α → Prop}
    (h : Ensures f Post s p) (ends : solo f ans s p = (s', .done x)) : Post s' x := by
  induction ans generalizing s p with
  | nil =>
    cases ends
    exact h
  | cons a rs ih =>
    cases p with
    | done y =>
      obtain ⟨rfl, hs⟩ := Prod.mk.inj ends
      cases hs
      exact h
    | ask q nx =>
      rw [Calls.solo] at ends
      cases han : f s q a with
      | none => exact ih h (by simpa only [han] using ends)
      | some an =>
        exact ih (h a an.1 an.2 han) (by simpa only [han] using ends)

lemma solo_append (ans ans' : List A) {p : Program Q R α} :
    solo f (ans ++ ans') s p = solo f ans' (solo f ans s p).1 (solo f ans s p).2 := by
  induction ans generalizing s p with
  | nil => rfl
  | cons a rs ih =>
    cases p with
    | done x => cases ans' <;> rfl
    | ask q nx =>
      simp only [cons_append, solo]
      cases f s q a with
      | none => exact ih
      | some an => exact ih

lemma solo_singleton (s : Served S O Q R) (c : Call O Q R α) (a : A) :
    solo f [a] s.state c.rest = ((advance f s c a).1.state, (advance f s c a).2.rest) := by
  obtain ⟨op, past, p⟩ := c
  cases p with
  | done x => rfl
  | ask q nx =>
    simp only [solo, advance]
    cases f s.state q a <;> rfl

/-- A call runs as if alone while all other steps leave the state as it is. -/
lemma solo_run (ss : List (Step O A E)) {w : World (Served S O Q R) (Call O Q R α)}
    (cl : w.calls[i]? = some c) (hkp : ∀ hb x ha, ss = hb ++ x :: ha → (∀ a, x ≠ .advance i a) →
      (step (system b f g) (run (system b f g) w hb) x).shared.state =
        (run (system b f g) w hb).shared.state) :
    ∃ ans c', (run (system b f g) w ss).calls[i]? = some c' ∧
      solo f ans w.shared.state c.rest = ((run (system b f g) w ss).shared.state, c'.rest) := by
  induction ss using reverseRecOn with
  | nil => exact ⟨[], c, cl, rfl⟩
  | append_singleton ss x ih =>
    obtain ⟨ans, c', hh, alone⟩ := ih fun hb y ha split => hkp hb y (ha ++ [x]) (by simp [split])
    rw [run_append_singleton]
    by_cases own : ∃ a, x = .advance i a
    · obtain ⟨a, rfl⟩ := own
      rw [step_advance_some hh]
      refine ⟨ans ++ [a], _, getElem?_set_self (List.getElem?_eq_some_iff.mp hh).1, ?_⟩
      rw [solo_append, alone]
      exact solo_singleton _ c' a
    · rw [not_exists] at own
      obtain ⟨c'', cl0, rfl | ⟨a, is, -⟩⟩ := @call_step _ _ _ _ _ (system b f g) _ _ _ x hh
      · exact ⟨ans, c'', cl0, by rw [hkp ss x [] rfl own, alone]⟩
      · exact absurd is (own a)

lemma Ensures.bind {β} {Mid : S → β → Prop} {Post : S → α → Prop} {p}
    {k : β → Program Q R α} (h1 : Ensures f Mid s p)
    (rs : ∀ s x, Mid s x → Ensures f Post s (k x)) : Ensures f Post s (p >>= k) := by
  induction p generalizing s with
  | done x => exact rs s x h1
  | ask q nx ih => exact fun a s' r han => ih r (h1 a s' r han)

lemma ensures_of_obeys {J : S → Prop} {V : (q : Q) → R q → Prop} {P : Q → Prop} {T : α → Prop}
    (hv : ∀ s q a s' r, J s → P q → f s q a = some (s', r) → V q r ∧ J s')
    (s0 : J s) (hob : Obeys V (fun _ => P) T past p) :
    Ensures f (fun s x => J s ∧ T x) s p := by
  induction p generalizing s past with
  | done x => exact ⟨s0, hob⟩
  | ask q nx ih =>
    intro a s' r han
    obtain ⟨hva, kp⟩ := hv s q a s' r s0 hob.1 han
    exact ih r kp (hob.2 r hva)

end
end Gibson.Calls
