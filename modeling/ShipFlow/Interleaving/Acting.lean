import Mathlib.Data.List.Induction
import ShipFlow.Interleaving.Discipline

/-! What the single actions of a request may do, whatever store they find: a property
of the request itself, which its part in any run then has. -/

namespace Interleaving
variable {ρ ι σ ω ε α β : Type}

namespace Process

/-- Every action of the process is as `P` says. `P` sees the inputs so far, the last
one first, the store, what the action does, and what is left of the process. -/
def Acts (P : List ι → σ → σ × List ω → Process ι σ ω ε α → Prop) :
    List ι → Process ι σ ω ε α → Prop
  | _, .done _ => True
  | _, .fail _ => True
  | inputs, .step act next => ∀ i s,
    P (i :: inputs) s (act i s) (next i s) ∧ Acts P (i :: inputs) (next i s)

/-- Every action of the process is as `P` says, in whatever store it happens and whatever the
actions before it have found. -/
def Every (P : σ → σ × List ω → Prop) : Process ι σ ω ε α → Prop
  | .done _ => True
  | .fail _ => True
  | .step act next => ∀ i s, P s (act i s) ∧ (next i s).Every P

/-- What the process returns is as `P` says, whatever its actions find. -/
def Returns (P : α → Prop) : Process ι σ ω ε α → Prop
  | .done a => P a
  | .fail _ => True
  | .step _ next => ∀ i s, (next i s).Returns P

/-- Every observation of the process satisfies `P`. -/
abbrev Observes (P : ω → Prop) (p : Process ι σ ω ε α) : Prop := p.Every fun _ r => ∀ o ∈ r.2, P o

namespace Every
variable {P : σ → σ × List ω → Prop} {p : Process ι σ ω ε α} {k : β → Process ι σ ω ε α}

theorem pure (a : α) : (Pure.pure a : Process ι σ ω ε α).Every P := True.intro

theorem throw (e : ε) : (throw e : Process ι σ ω ε α).Every P := True.intro

theorem ask {f : ι → β} (hidle : ∀ s, P s (s, [])) (h : ∀ b, (k b).Every P) :
    (Process.ask f >>= k).Every P :=
  fun i s => ⟨hidle s, h (f i)⟩

theorem query {f : σ → β} (hidle : ∀ s, P s (s, [])) (h : ∀ b, (k b).Every P) :
    (Process.query f >>= k).Every P :=
  fun _ s => ⟨hidle s, h (f s)⟩

theorem rejectIf {c : Bool} {e : ε} {k : Unit → Process ι σ ω ε α} (h : (k ()).Every P) :
    (Process.rejectIf c e >>= k).Every P := by
  cases c with
  | true => exact True.intro
  | false => exact h

theorem ofExcept {x : Except ε β} (h : ∀ b, (k b).Every P) :
    (Process.ofExcept x >>= k).Every P := by
  cases x with
  | ok b => exact h b
  | error e => exact True.intro

theorem atomically {m : ι → Transaction σ ε β} {observe : Except ε β → List ω}
    (hok : ∀ i s b s', m i s = .ok (b, s') → P s (s', observe (.ok b)))
    (hfail : ∀ i s e, m i s = .error e → P s (s, observe (.error e)))
    (h : ∀ b, (k b).Every P) : (Process.atomically m observe >>= k).Every P := by
  intro i s
  cases hr : m i s with
  | ok r => simpa [hr, Process.bind] using ⟨hok i s r.1 r.2 hr, h r.1⟩
  | error e => simpa [hr, Process.bind, Every] using hfail i s e hr

theorem bind {p : Process ι σ ω ε β} (hp : p.Every P) (hk : ∀ b, (k b).Every P) :
    (p >>= k).Every P := by
  induction p with
  | done b => exact hk b
  | fail e => exact True.intro
  | step act next ih => exact fun i s => ⟨(hp i s).1, ih i s (hp i s).2⟩

theorem map {f : β → α} {p : Process ι σ ω ε β} (hp : p.Every P) : (f <$> p).Every P :=
  bind (k := fun b => .done (f b)) hp fun _ => True.intro

theorem handle {h : ε → Process ι σ ω ε α} (hp : p.Every P) (hh : ∀ e, (h e).Every P) :
    (tryCatch p h).Every P := by
  change (p.handle h).Every P
  induction p with
  | done a => exact True.intro
  | fail e => exact hh e
  | step act next ih => exact fun i s => ⟨(hp i s).1, ih i s (hp i s).2⟩

theorem forEach {f : β → Process ι σ ω ε Unit} {bs : List β} (hf : ∀ b ∈ bs, (f b).Every P) :
    (Process.forEach f bs).Every P := by
  induction bs with
  | nil => exact True.intro
  | cons b bs ih =>
    have hrest := ih fun b' hb' => hf b' (List.mem_cons_of_mem b hb')
    exact bind (hf b List.mem_cons_self) fun _ => hrest

end Every

namespace Returns
variable {P : α → Prop} {Q : β → Prop} {p : Process ι σ ω ε β} {k : β → Process ι σ ω ε α}

theorem pure {a : α} (h : P a) : (Pure.pure a : Process ι σ ω ε α).Returns P := h

theorem bind (hp : p.Returns Q) (hk : ∀ b, Q b → (k b).Returns P) : (p >>= k).Returns P := by
  induction p with
  | done b => exact hk b hp
  | fail e => exact True.intro
  | step act next ih => exact fun i s => ih i s (hp i s)

theorem trivial (p : Process ι σ ω ε β) : p.Returns fun _ => True := by
  induction p with
  | done b => exact True.intro
  | fail e => exact True.intro
  | step act next ih => exact fun i s => ih i s

/-- The result is made in the last part. -/
theorem last (hk : ∀ b, (k b).Returns P) : (p >>= k).Returns P := bind (trivial p) fun b _ => hk b

end Returns

namespace Observes
variable {P : ω → Prop} {k : β → Process ι σ ω ε α}

theorem ask {f : ι → β} (h : ∀ b, (k b).Observes P) : (Process.ask f >>= k).Observes P :=
  Every.ask (fun _ _ ho => absurd ho List.not_mem_nil) h

theorem query {f : σ → β} (h : ∀ b, (k b).Observes P) : (Process.query f >>= k).Observes P :=
  Every.query (fun _ _ ho => absurd ho List.not_mem_nil) h

theorem atomically {m : ι → Transaction σ ε β} {observe : Except ε β → List ω}
    (hm : ∀ r, ∀ o ∈ observe r, P o) (h : ∀ b, (k b).Observes P) :
    (Process.atomically m observe >>= k).Observes P :=
  Every.atomically (fun _ _ b _ _ => hm (.ok b)) (fun _ _ e _ => hm (.error e)) h

end Observes

section Acts
variable {P : List ι → σ → σ × List ω → Process ι σ ω ε α → Prop} {inputs : List ι}
  {k : β → Process ι σ ω ε α}

/-- A part of a request that only observes what is always allowed. -/
theorem Observes.acts_bind {Q : ω → Prop} {p : Process ι σ ω ε β} (hp : p.Observes Q)
    (hquiet : ∀ inputs s r rest, (∀ o ∈ r.2, Q o) → P inputs s r rest)
    (hk : ∀ b inputs', inputs ⊆ inputs' → (k b).Acts P inputs') : (p >>= k).Acts P inputs := by
  induction p generalizing inputs with
  | done b => exact hk b inputs (List.Subset.refl _)
  | fail e => exact True.intro
  | step act next ih =>
    intro i s
    refine ⟨hquiet _ _ _ _ (hp i s).1, ih i s (hp i s).2 fun b inputs' hsub => ?_⟩
    exact hk b inputs' fun x hx => hsub (List.mem_cons_of_mem i hx)

theorem Observes.acts {Q : ω → Prop} {p : Process ι σ ω ε α} (hp : p.Observes Q)
    (hquiet : ∀ inputs s r rest, (∀ o ∈ r.2, Q o) → P inputs s r rest) : p.Acts P inputs := by
  rw [← bind_pure p]
  exact hp.acts_bind hquiet fun _ _ _ => True.intro

theorem Acts.map {P' : List ι → σ → σ × List ω → Process ι σ ω ε β → Prop} {f : β → α}
    {p : Process ι σ ω ε β} (hp : p.Acts P' inputs)
    (h : ∀ inputs s r rest, P' inputs s r rest → P inputs s r (f <$> rest)) :
    (f <$> p).Acts P inputs := by
  induction p generalizing inputs with
  | done b => exact True.intro
  | fail e => exact True.intro
  | step act next ih => exact fun i s => ⟨h _ _ _ _ (hp i s).1, ih i s (hp i s).2⟩

theorem Acts.ask {f : ι → β} (hquiet : ∀ inputs s rest, P inputs s (s, []) rest)
    (h : ∀ i, (k (f i)).Acts P (i :: inputs)) : (Process.ask f >>= k).Acts P inputs :=
  fun i s => ⟨hquiet _ s _, h i⟩

theorem Acts.rejectIf {c : Bool} {e : ε} {k : Unit → Process ι σ ω ε α}
    (h : (k ()).Acts P inputs) : (Process.rejectIf c e >>= k).Acts P inputs := by
  cases c with
  | true => exact True.intro
  | false => exact h

theorem Acts.atomically {m : ι → Transaction σ ε β} {observe : Except ε β → List ω}
    (hok : ∀ i s b s', m i s = .ok (b, s') →
      P (i :: inputs) s (s', observe (.ok b)) (k b) ∧ (k b).Acts P (i :: inputs))
    (hfail : ∀ i s e, m i s = .error e → P (i :: inputs) s (s, observe (.error e)) (.fail e)) :
    (Process.atomically m observe >>= k).Acts P inputs := by
  intro i s
  cases hr : m i s with
  | ok r => simpa [hr, Process.bind] using hok i s r.1 r.2 hr
  | error e => simpa [hr, Process.bind, Acts] using hfail i s e hr

end Acts
end Process

namespace Config
variable {handler : ρ → Process ι σ ω ε α} {c : Config ρ ι σ ω ε α}

/-- The inputs offered to a request by these actions, the last one first. -/
def offered (pid : Nat) (acts : List (Action ρ ι)) : List ι :=
  acts.foldl (fun inputs a => match a with
    | .request _ => inputs
    | .advance q i => if q = pid then i :: inputs else inputs) []

theorem offered_snoc (pid : Nat) (acts : List (Action ρ ι)) (a : Action ρ ι) :
    offered pid (acts ++ [a]) = match a with
      | .request _ => offered pid acts
      | .advance q i => if q = pid then i :: offered pid acts else offered pid acts := by
  rw [offered, List.foldl_append]
  rfl

theorem mem_offered {pid : Nat} {acts : List (Action ρ ι)} {i : ι} (h : i ∈ offered pid acts) :
    .advance pid i ∈ acts := by
  induction acts using List.reverseRecOn with
  | nil => exact absurd h List.not_mem_nil
  | append_singleton acts a ih =>
    rw [offered_snoc] at h
    cases a with
    | request r => exact List.mem_append_left _ (ih h)
    | advance q j =>
      simp only at h
      split at h
      · rename_i hq
        rcases List.mem_cons.mp h with rfl | h
        · exact List.mem_append_right _ (by rw [hq]; exact List.mem_singleton_self _)
        · exact List.mem_append_left _ (ih h)
      · exact List.mem_append_left _ (ih h)

/-- What is left of a request in a run acts as the request does, on the inputs it was offered. -/
theorem pool_acts {P : ρ → List ι → σ → σ × List ω → Process ι σ ω ε α → Prop}
    (hhandler : ∀ r inputs, (handler r).Acts (P r) inputs) (s : σ) (acts : List (Action ρ ι)) {pid : Nat}
    {r : ρ} {p : Process ι σ ω ε α}
    (hp : ((Config.init s).run handler acts).pool[pid]? = some (r, p)) :
    p.Acts (P r) (offered pid acts) := by
  induction acts using List.reverseRecOn generalizing pid r p with
  | nil => simp [init] at hp
  | append_singleton before a ih =>
    rw [run_append, run_cons, run_nil] at hp
    rw [offered_snoc]
    cases a with
    | request r' =>
      simp only [act] at hp
      rw [List.getElem?_append] at hp
      split at hp
      · exact ih hp
      · rw [List.getElem?_singleton] at hp
        split at hp
        · cases hp
          exact hhandler _ _
        · cases hp
    | advance q i =>
      rcases hq : ((Config.init s).run handler before).pool[q]? with _ | ⟨r', p'⟩
      · rw [act, hq] at hp
        have hne : q ≠ pid := by
          rintro rfl
          rw [hq] at hp
          cases hp
        simp only [hne, if_false]
        exact ih hp
      · cases p' with
        | step f next =>
          rw [act_advance hq, List.getElem?_set] at hp
          split at hp
          · rename_i heq
            subst heq
            rw [if_pos (List.getElem?_eq_some_iff.mp hq).1] at hp
            cases hp
            simp only [if_true]
            exact ((ih hq) i _).2
          · rename_i hne
            simp only [hne, if_false]
            exact ih hp
        | _ =>
          -- a request that has ended acts no more
          rw [act, hq] at hp
          have hbefore := ih hp
          by_cases heq : q = pid
          · subst heq
            rw [hq] at hp
            cases hp
            exact True.intro
          · simp only [heq, if_false]
            exact hbefore

/-- The next step of a request in a run. -/
theorem step_acts {P : ρ → List ι → σ → σ × List ω → Process ι σ ω ε α → Prop}
    (hhandler : ∀ r inputs, (handler r).Acts (P r) inputs) (s : σ) (acts : List (Action ρ ι)) {pid : Nat}
    {r : ρ} {f : ι → σ → σ × List ω} {next : ι → σ → Process ι σ ω ε α}
    (hp : ((Config.init s).run handler acts).pool[pid]? = some (r, .step f next)) (i : ι) (s' : σ) :
    P r (i :: offered pid acts) s' (f i s') (next i s') :=
  (pool_acts hhandler s acts hp i s').1

end Config

/-- A request that keeps a discipline and whose actions are all as `P` says keeps the stricter
discipline that asks for both. -/
theorem Discipline.Keeps.and_every {D D' : Discipline σ ω} {P : σ → σ × List ω → Prop}
    (hinv : ∀ w, D'.inv w → D.inv w) (heffect : ∀ pid w w', D'.effect pid w w' → D.effect pid w w')
    (hboth : ∀ pid w r, D.effect pid w (w.advance pid r) → P w.store r →
      D'.effect pid w (w.advance pid r))
    {pid : Nat} {p : Process ι σ ω ε α} {w : World σ ω} (h : D.Keeps pid p w) (hp : p.Every P) :
    D'.Keeps pid p w := by
  induction p generalizing w with
  | done a => exact fun _ _ _ => True.intro
  | fail e => exact fun _ _ _ => True.intro
  | step act next ih =>
    intro w' hw hi i
    have hrely : D.contract.rely pid w w' := by
      refine Relation.ReflTransGen.mono (fun w₁ w₂ hstep => ?_) w w' hw
      obtain ⟨q, hq, hi₁, hi₂, he⟩ := hstep
      exact ⟨q, hq, hinv _ hi₁, hinv _ hi₂, heffect _ _ _ he⟩
    obtain ⟨-, he, hnext⟩ := h w' hrely (hinv _ hi) i
    have he' := hboth pid w' _ he (hp i w'.store).1
    exact ⟨D'.kept _ _ _ he' hi, he', ih i _ hnext (hp i w'.store).2⟩

/-- What no action of another request falsifies, and no action of this one that is as `R` says,
holds when the request ends. -/
theorem Discipline.Keeps.guarded {D : Discipline σ ω} {R : σ → σ × List ω → Prop} {P : α → Prop}
    {J : World σ ω → Prop} {pid : Nat}
    (hothers : ∀ q w w', q ≠ pid → D.inv w → D.inv w' → D.effect q w w' → J w → J w')
    (hown : ∀ w r, D.inv w → D.effect pid w (w.advance pid r) → R w.store r → J w →
      J (w.advance pid r)) {p : Process ι σ ω ε α} {w : World σ ω} (h : D.Keeps pid p w)
    (hp : p.Every R) (hreturns : p.Returns P) (hj : J w) :
    Ensures D.contract pid (fun r w => J w ∧ ∀ a, r = .ok a → P a) p w := by
  have hstable : ∀ {w w'}, J w → D.contract.rely pid w w' → J w' := by
    intro w w' hj hw
    induction hw with
    | refl => exact hj
    | tail _ hstep ih =>
      obtain ⟨q, hq, hi, hi', he⟩ := hstep
      exact hothers q _ _ hq hi hi' he ih
  induction p generalizing w with
  | done a =>
    refine Ensures.done fun w' hw _ => ⟨hstable hj hw, fun b heq => ?_⟩
    cases heq
    exact hreturns
  | fail e => exact Ensures.fail fun w' hw _ => ⟨hstable hj hw, fun _ heq => by cases heq⟩
  | step act next ih =>
    intro w' hw hi i
    obtain ⟨hi', he, hnext⟩ := h w' hw hi i
    obtain ⟨hact, hrest⟩ := hp i w'.store
    exact ⟨hi', he, ih i _ hnext hrest (hreturns i w'.store)
      (hown w' _ hi he hact (hstable hj hw))⟩

end Interleaving
