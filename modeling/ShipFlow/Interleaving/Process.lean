import Mathlib.Data.List.Basic

/-! Request handlers as resumptions. A handler alternates local computation
with atomic actions on a shared store; between two of its actions the actions
of other handlers may happen. Every action may consult an input (the clock, a
random source, the answer of a remote service) and may record observations. -/

namespace Interleaving

inductive Process (ι σ ω ε α : Type) : Type where
  | done (a : α)
  | fail (e : ε)
  | step (act : ι → σ → σ × List ω) (next : ι → σ → Process ι σ ω ε α)

/-- A transaction either commits a new store or fails and leaves none behind. -/
abbrev Transaction (σ ε : Type) := StateT σ (Except ε)

namespace Transaction
variable {σ ε α β : Type}

def reads (f : σ → α) : Transaction σ ε α := fun s => .ok (f s, s)

def writes (f : σ → σ) : Transaction σ ε Unit := fun s => .ok ((), f s)

def fails (e : ε) : Transaction σ ε α := fun _ => .error e

def rejectIf (c : Bool) (e : ε) : Transaction σ ε Unit := fun s =>
  if c then .error e else .ok ((), s)

@[simp] theorem pure_ok (a b : α) (s s' : σ) :
    (pure a : Transaction σ ε α) s = .ok (b, s') ↔ b = a ∧ s' = s := by
  change (Except.ok (a, s) : Except ε (α × σ)) = .ok (b, s') ↔ _
  simp [eq_comm]

@[simp] theorem bind_ok (x : Transaction σ ε α) (f : α → Transaction σ ε β) (s s'' : σ) (b : β) :
    (x >>= f) s = .ok (b, s'') ↔ ∃ a s', x s = .ok (a, s') ∧ f a s' = .ok (b, s'') := by
  cases hx : x s with
  | error e => simp [bind, StateT.bind, Except.bind, hx]
  | ok r => simp [bind, StateT.bind, Except.bind, hx, Prod.ext_iff, and_assoc]

theorem bind_error (x : Transaction σ ε α) (f : α → Transaction σ ε β) (s : σ) (e : ε) :
    (x >>= f) s = .error e ↔ x s = .error e ∨ ∃ a s', x s = .ok (a, s') ∧ f a s' = .error e := by
  cases hx : x s with
  | error e' => simp [bind, StateT.bind, Except.bind, hx]
  | ok r => simp [bind, StateT.bind, Except.bind, hx, Prod.ext_iff, and_assoc]

@[simp] theorem map_ok (f : α → β) (x : Transaction σ ε α) (s s' : σ) (b : β) :
    (f <$> x) s = .ok (b, s') ↔ ∃ a, x s = .ok (a, s') ∧ b = f a := by
  rw [show (f <$> x) = x >>= fun a => pure (f a) from rfl, bind_ok]
  simp only [pure_ok]
  exact ⟨fun ⟨a, _, h, hb, hs⟩ => ⟨a, hs ▸ h, hb⟩, fun ⟨a, h, hb⟩ => ⟨a, s', h, hb, rfl⟩⟩

@[simp] theorem reads_ok (f : σ → α) (s s' : σ) (a : α) :
    (reads f : Transaction σ ε α) s = .ok (a, s') ↔ a = f s ∧ s' = s := by
  simp [reads, eq_comm]

@[simp] theorem writes_ok (f : σ → σ) (s s' : σ) (u : Unit) :
    (writes f : Transaction σ ε Unit) s = .ok (u, s') ↔ s' = f s := by
  simp [writes, eq_comm]

@[simp] theorem fails_ok (e : ε) (s : σ) (r : α × σ) :
    (fails e : Transaction σ ε α) s = .ok r ↔ False := by
  simp [fails]

@[simp] theorem rejectIf_ok (c : Bool) (e : ε) (s s' : σ) (u : Unit) :
    rejectIf c e s = .ok (u, s') ↔ c = false ∧ s' = s := by
  cases c <;> simp [rejectIf, eq_comm]

end Transaction

namespace Process
variable {ι σ ω ε α β : Type}

def bind : Process ι σ ω ε α → (α → Process ι σ ω ε β) → Process ι σ ω ε β
  | .done a, k => k a
  | .fail e, _ => .fail e
  | .step act next, k => .step act fun i s => (next i s).bind k

def handle : Process ι σ ω ε α → (ε → Process ι σ ω ε α) → Process ι σ ω ε α
  | .done a, _ => .done a
  | .fail e, h => h e
  | .step act next, h => .step act fun i s => (next i s).handle h

instance : Monad (Process ι σ ω ε) where
  pure := .done
  bind := bind

instance : MonadExceptOf ε (Process ι σ ω ε) where
  throw := .fail
  tryCatch := handle

@[simp] theorem pure_bind (a : α) (k : α → Process ι σ ω ε β) :
    (pure a : Process ι σ ω ε α) >>= k = k a := rfl

@[simp] theorem fail_bind (e : ε) (k : α → Process ι σ ω ε β) :
    (.fail e : Process ι σ ω ε α) >>= k = .fail e := rfl

@[simp] theorem step_bind (act : ι → σ → σ × List ω) (next : ι → σ → Process ι σ ω ε α)
    (k : α → Process ι σ ω ε β) :
    (.step act next : Process ι σ ω ε α) >>= k = .step act fun i s => next i s >>= k := rfl

@[simp] theorem bind_pure (p : Process ι σ ω ε α) : p >>= pure = p := by
  induction p with
  | done a => rfl
  | fail e => rfl
  | step act next ih =>
    rw [step_bind]
    congr 1
    funext i s
    exact ih i s

theorem bind_assoc {γ : Type} (p : Process ι σ ω ε α) (f : α → Process ι σ ω ε β)
    (g : β → Process ι σ ω ε γ) : (p >>= f) >>= g = p >>= fun a => f a >>= g := by
  induction p with
  | done a => rfl
  | fail e => rfl
  | step act next ih =>
    rw [step_bind, step_bind, step_bind]
    congr 1
    funext i s
    exact ih i s

/-- The next input: the clock, a fresh token, the answer of a service. -/
def ask (f : ι → β) : Process ι σ ω ε β :=
  .step (fun _ s => (s, [])) fun i _ => .done (f i)

/-- One atomic statement or transaction. On failure the store is as before;
the observations depend on the outcome. -/
def atomically (m : ι → Transaction σ ε β) (observe : Except ε β → List ω) :
    Process ι σ ω ε β :=
  .step
    (fun i s => match m i s with
      | .ok (b, s') => (s', observe (.ok b))
      | .error e => (s, observe (.error e)))
    (fun i s => match m i s with
      | .ok (b, _) => .done b
      | .error e => .fail e)

def statement (m : Transaction σ ε β) : Process ι σ ω ε β :=
  atomically (fun _ => m) fun _ => []

def query (f : σ → β) : Process ι σ ω ε β :=
  .step (fun _ s => (s, [])) fun _ s => .done (f s)

def rejectIf (c : Bool) (e : ε) : Process ι σ ω ε Unit :=
  if c then .fail e else .done ()

/-- The requests for all elements of a list, one after the other. -/
def forEach (f : β → Process ι σ ω ε Unit) : List β → Process ι σ ω ε Unit
  | [] => .done ()
  | b :: bs => f b >>= fun _ => forEach f bs

def ofExcept : Except ε α → Process ι σ ω ε α
  | .ok a => .done a
  | .error e => .fail e

end Process

/-- The store together with the observations made so far, each with the number
of the request that made it. -/
structure World (σ ω : Type) where
  store : σ
  trace : List (Nat × ω)

namespace World
variable {σ ω : Type}

def advance (w : World σ ω) (pid : Nat) (r : σ × List ω) : World σ ω :=
  ⟨r.1, w.trace ++ r.2.map fun o => (pid, o)⟩

@[simp] theorem advance_store (w : World σ ω) (pid : Nat) (r : σ × List ω) :
    (w.advance pid r).store = r.1 := rfl

@[simp] theorem advance_trace (w : World σ ω) (pid : Nat) (r : σ × List ω) :
    (w.advance pid r).trace = w.trace ++ r.2.map fun o => (pid, o) := rfl

/-- The observations made between two worlds of a run. -/
def newEvents (w w' : World σ ω) : List (Nat × ω) := w'.trace.drop w.trace.length

@[simp] theorem newEvents_self (w : World σ ω) : w.newEvents w = [] := List.drop_length

@[simp] theorem newEvents_advance (w : World σ ω) (pid : Nat) (s : σ) (es : List ω) :
    w.newEvents (w.advance pid (s, es)) = es.map fun e => (pid, e) := by
  simp [newEvents]

@[simp] theorem advance_idle (w : World σ ω) (pid : Nat) : w.advance pid (w.store, []) = w := by
  simp [advance]

end World

/-- What was observed after the first observation that satisfies `p`. -/
def since {β : Type} (p : β → Bool) (t : List β) : List β := (t.dropWhile fun x => !p x).tail

section Since
variable {β : Type} {p : β → Bool} {t t' : List β} {x : β}

theorem mem_of_mem_since (h : x ∈ since p t) : x ∈ t :=
  (List.dropWhile_suffix _).subset (List.mem_of_mem_tail h)

theorem since_append_of_mem (h : ∃ y ∈ t, p y = true) : since p (t ++ t') = since p t ++ t' := by
  induction t with
  | nil => simp at h
  | cons y t ih =>
    cases hy : p y with
    | true => simp [since, hy]
    | false =>
      have ht : ∃ z ∈ t, p z = true := by simpa [hy] using h
      simpa [since, hy] using ih ht

theorem since_append_of_not_mem (h : ∀ y ∈ t, p y = false) : since p (t ++ t') = since p t' := by
  induction t with
  | nil => rfl
  | cons y t ih =>
    have hy := h y List.mem_cons_self
    simpa [since, hy] using ih fun z hz => h z (List.mem_cons_of_mem y hz)

theorem mem_since_append (h : x ∈ since p (t ++ t')) : x ∈ since p t ∨ x ∈ t' := by
  by_cases hp : ∃ y ∈ t, p y = true
  · rw [since_append_of_mem hp] at h
    exact List.mem_append.mp h
  · rw [since_append_of_not_mem fun y hy => Bool.eq_false_iff.mpr fun hpy => hp ⟨y, hy, hpy⟩] at h
    exact .inr (mem_of_mem_since h)

theorem since_mono (h : x ∈ since p t) : x ∈ since p (t ++ t') := by
  have hp : ∃ y ∈ t, p y = true := by
    by_contra hnone
    have hfalse : ∀ y ∈ t, p y = false := fun y hy =>
      Bool.eq_false_iff.mpr fun hpy => hnone ⟨y, hy, hpy⟩
    have hempty : since p (t ++ []) = since p [] := since_append_of_not_mem hfalse
    rw [List.append_nil] at hempty
    rw [hempty] at h
    simp [since] at h
  rw [since_append_of_mem hp]
  exact List.mem_append_left t' h

end Since

namespace Process
variable {ι σ ω ε α β : Type}

/-- The request run to its end with no other action in between; the stream
gives the input of each action. -/
def alone (pid : Nat) :
    Process ι σ ω ε α → (Nat → ι) → World σ ω → Except ε α × World σ ω
  | .done a, _, w => (.ok a, w)
  | .fail e, _, w => (.error e, w)
  | .step act next, f, w =>
    (next (f 0) w.store).alone pid (fun n => f (n + 1)) (w.advance pid (act (f 0) w.store))

end Process
end Interleaving
