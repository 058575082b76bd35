import Mathlib.Data.List.Basic

/-! Sequential code that makes one request at a time: a program is its next request with what it
does for each reply. -/

namespace Gibson.Requests

inductive Program (Q : Type) (R : Q → Type) (α : Type) where
  | done (a : α)
  | ask (q : Q) (next : R q → Program Q R α)

variable {Q : Type} {R : Q → Type} {α β : Type}

def Program.bind (f : α → Program Q R β) : Program Q R α → Program Q R β
  | .done a => f a
  | .ask q next => .ask q fun r => (next r).bind f

instance : Monad (Program Q R) where
  pure := .done
  bind p f := p.bind f

lemma Program.bind_assoc (p : Program Q R α) (f : α → Program Q R β)
    (g : β → Program Q R γ) : p >>= f >>= g = p >>= fun a => f a >>= g := by
  induction p with
  | done a => rfl
  | ask q nx ih =>
    exact congrArg _ (funext fun r => ih r)

/-- A reply that may be a failure: the failure and each result are followed on their own. -/
lemma forall_except {P : Except ε α → Prop} (hfa : ∀ e, P (.error e)) (ok : ∀ x, P (.ok x)) :
    ∀ r, P r
  | .error e => hfa e
  | .ok x => ok x

lemma forall_ok {P : Except ε α → Prop} (ok : ∀ x, P (.ok x))
    (hfa : ∀ e, P (.error e) := by intros; trivial) : ∀ r, P r :=
  forall_except hfa ok

def send (q : Q) : Program Q R (R q) := .ask q .done

abbrev History (Q : Type) (R : Q → Type) := List (Σ q, R q)

/-- Every request satisfies `P`, given what came before, and the result `Post`. -/
def Obeys (Valid : (q : Q) → R q → Prop) (P : History Q R → Q → Prop) (Post : α → Prop)
    (past : History Q R) : Program Q R α → Prop
  | .done a => Post a
  | .ask q next => P past q ∧ ∀ r, Valid q r → Obeys Valid P Post (⟨q, r⟩ :: past) (next r)

section
variable {Valid : (q : Q) → R q → Prop}

lemma obeys_pure {Post : α → Prop} (post : Post a) :
    Obeys Valid P Post past (pure a : Program Q R α) :=
  post

lemma obeys_bind {M : α → Prop} {Post : β → Prop} {f : α → Program Q R β}
    (h1 : Obeys Valid P M pa p) (rs : ∀ a pa, M a → Obeys Valid P Post pa (f a)) :
    Obeys Valid P Post pa (p >>= f) := by
  induction p generalizing pa with
  | done a => exact rs a pa h1
  | ask q nx ih => exact ⟨h1.1, fun r hva => ih r (h1.2 r hva)⟩

lemma obeys_map {Post : β → Prop} {f : α → β}
    (h : Obeys Valid P (fun a => Post (f a)) past p) : Obeys Valid P Post past (f <$> p) :=
  obeys_bind h fun _ _ post => obeys_pure post

lemma obeys_foldlM {I : β → Prop} {f : β → α → Program Q R β} {l : List α}
    (step : ∀ b a hpa, a ∈ l → I b → Obeys Valid P I hpa (f b a)) (init : I b) (hpa) :
    Obeys Valid P I hpa (l.foldlM f b) := by
  induction l generalizing b hpa with
  | nil => exact init
  | cons a l ih =>
    rw [List.foldlM_cons]
    exact obeys_bind (step b a hpa List.mem_cons_self init) fun b' pas' inv =>
      ih (fun b a hpa mem => step b a hpa (List.mem_cons_of_mem _ mem)) inv pas'

end
end Gibson.Requests
