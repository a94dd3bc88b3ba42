import ShipFlow.Interleaving.Pool

/-! A service whose actions are known: every action of every request is an effect,
and effects keep an invariant. Requests are proved action by action with the rules
of this file, and then hold in any interleaving. -/

namespace Interleaving
variable {ι σ ω ε α β : Type}

structure Discipline (σ ω : Type) where
  inv : World σ ω → Prop
  effect : Nat → World σ ω → World σ ω → Prop
  idle : ∀ pid w, effect pid w w
  kept : ∀ pid w w', effect pid w w' → inv w → inv w'

namespace Discipline

abbrev contract (D : Discipline σ ω) : Contract σ ω := Contract.concurrent D.inv D.effect

/-- No effect falsifies the assertion. -/
def Stable (D : Discipline σ ω) (I : World σ ω → Prop) : Prop :=
  ∀ q w w', D.inv w → D.inv w' → D.effect q w w' → I w → I w'

theorem stable_true (D : Discipline σ ω) : D.Stable fun _ => True :=
  fun _ _ _ _ _ _ _ => True.intro

/-- An effect adds observations of its own request to the record, and no others. -/
def Logs (D : Discipline σ ω) : Prop :=
  ∀ pid w w', D.effect pid w w' → ∃ es : List ω, w'.trace = w.trace ++ es.map fun e => (pid, e)

section Logs
variable {D : Discipline σ ω} {pid : Nat} {w w' : World σ ω}

theorem Logs.mem (hD : D.Logs) (h : D.contract.rely pid w w') {x : Nat × ω} (hx : x ∈ w.trace) :
    x ∈ w'.trace := by
  induction h with
  | refl => exact hx
  | tail _ hstep ih =>
    obtain ⟨q, -, -, -, heffect⟩ := hstep
    obtain ⟨es, hes⟩ := hD q _ _ heffect
    rw [hes]
    exact List.mem_append_left _ ih

/-- What a request has observed is its own doing. -/
theorem Logs.own (hD : D.Logs) (h : D.contract.rely pid w w') {e : ω} (he : (pid, e) ∈ w'.trace) :
    (pid, e) ∈ w.trace := by
  induction h with
  | refl => exact he
  | tail _ hstep ih =>
    obtain ⟨q, hq, -, -, heffect⟩ := hstep
    obtain ⟨es, hes⟩ := hD q _ _ heffect
    rw [hes] at he
    rcases List.mem_append.mp he with he | he
    · exact ih he
    · obtain ⟨e', -, heq⟩ := List.mem_map.mp he
      exact absurd (Prod.mk.inj heq).1 hq

theorem Logs.unused (hD : D.Logs) (h : D.contract.rely pid w w') (hunused : w.Unused pid) :
    w'.Unused pid := by
  rintro ⟨q, e⟩ he hq
  subst hq
  exact hunused _ (hD.own h he) rfl

end Logs

/-- Every action of the request is an effect. -/
def Keeps (D : Discipline σ ω) (pid : Nat) (p : Process ι σ ω ε α) (w : World σ ω) : Prop :=
  Ensures D.contract pid (fun _ _ => True) p w

namespace Keeps
variable {D : Discipline σ ω} {pid : Nat} {w : World σ ω}

theorem pure (a : α) : D.Keeps pid (Pure.pure a : Process ι σ ω ε α) w := fun _ _ _ => True.intro

theorem throw (e : ε) : D.Keeps pid (throw e : Process ι σ ω ε α) w := fun _ _ _ => True.intro

theorem ask {f : ι → β} {k : β → Process ι σ ω ε α} (h : ∀ b, D.Keeps pid (k b) w) :
    D.Keeps pid (Process.ask f >>= k) w := Ensures.ask (D.idle pid) h

theorem query {f : σ → β} {k : β → Process ι σ ω ε α}
    (h : ∀ w', D.inv w' → D.Keeps pid (k (f w'.store)) w') :
    D.Keeps pid (Process.query f >>= k) w := Ensures.query (D.idle pid) fun w' _ hi => h w' hi

theorem query_known {f : σ → β} {k : β → Process ι σ ω ε α} {I : World σ ω → Prop}
    (hI : D.Stable I) (hi : I w) (h : ∀ w', D.inv w' → I w' → D.Keeps pid (k (f w'.store)) w') :
    D.Keeps pid (Process.query f >>= k) w :=
  Ensures.query (D.idle pid) fun w' hw hinv => h w' hinv (Contract.concurrent_stable hI hw hi)

/-- A query that is observed. -/
theorem reads {f : σ → β} {observe : Except ε β → List ω} {k : β → Process ι σ ω ε α}
    (heffect : ∀ w', D.inv w' →
      D.effect pid w' (w'.advance pid (w'.store, observe (.ok (f w'.store)))))
    (h : ∀ w', D.inv w' →
      D.Keeps pid (k (f w'.store)) (w'.advance pid (w'.store, observe (.ok (f w'.store))))) :
    D.Keeps pid (Process.atomically (fun _ => Transaction.reads f) observe >>= k) w := by
  refine Ensures.atomically (fun w' _ hinv i b s' hm => ?_) fun w' _ _ i e hm => ?_
  · obtain ⟨rfl, rfl⟩ := (Transaction.reads_ok _ _ _ _).mp hm
    exact ⟨D.kept _ _ _ (heffect w' hinv) hinv, heffect w' hinv, h w' hinv⟩
  · simp [Transaction.reads] at hm

theorem rejectIf {c : Bool} {e : ε} {k : Unit → Process ι σ ω ε α}
    (h : c = false → D.Keeps pid (k ()) w) : D.Keeps pid (Process.rejectIf c e >>= k) w :=
  Ensures.rejectIf (fun _ _ _ _ => True.intro) h

theorem ofExcept {x : Except ε β} {k : β → Process ι σ ω ε α}
    (h : ∀ b, x = .ok b → D.Keeps pid (k b) w) : D.Keeps pid (Process.ofExcept x >>= k) w :=
  Ensures.ofExcept (fun _ _ _ _ _ => True.intro) h

theorem bind {p : Process ι σ ω ε β} {k : β → Process ι σ ω ε α} (hp : D.Keeps pid p w)
    (hk : ∀ b w', D.Keeps pid (k b) w') : D.Keeps pid (p >>= k) w := by
  apply Ensures.bind
  apply hp.mono
  intro r w' _ _
  cases r with
  | ok b => exact hk b w'
  | error e => exact fun _ _ _ => True.intro

theorem handle {p : Process ι σ ω ε α} {h : ε → Process ι σ ω ε α} (hp : D.Keeps pid p w)
    (hh : ∀ e w', D.Keeps pid (h e) w') : D.Keeps pid (tryCatch p h) w := by
  apply Ensures.handle
  apply hp.mono
  intro r w' _ _
  cases r with
  | ok a => exact fun _ _ _ => True.intro
  | error e => exact hh e w'

theorem handle_known {I : World σ ω → Prop} {p : Process ι σ ω ε α} {h : ε → Process ι σ ω ε α}
    (hI : D.Stable I) (hi : I w) (hp : D.Keeps pid p w)
    (hh : ∀ e w', I w' → D.Keeps pid (h e) w') : D.Keeps pid (tryCatch p h) w := by
  apply Ensures.handle
  apply (Ensures.frame hI hp hi).mono
  intro r w' _ hr
  cases r with
  | ok a => exact fun _ _ _ => True.intro
  | error e => exact hh e w' hr.2

theorem frame {I : World σ ω → Prop} {p : Process ι σ ω ε β} {k : β → Process ι σ ω ε α}
    (hI : D.Stable I) (hp : D.Keeps pid p w) (hi : I w) (hk : ∀ b w', I w' → D.Keeps pid (k b) w') :
    D.Keeps pid (p >>= k) w := by
  apply Ensures.bind
  apply (Ensures.frame hI hp hi).mono
  intro r w' _ hr
  cases r with
  | ok b => exact hk b w' hr.2
  | error e => exact fun _ _ _ => True.intro

theorem forEach {I : World σ ω → Prop} {f : β → Process ι σ ω ε Unit} {bs : List β}
    (hI : D.Stable I) (hi : I w) (hf : ∀ b ∈ bs, ∀ w', I w' → D.Keeps pid (f b) w') :
    D.Keeps pid (Process.forEach f bs) w := by
  induction bs generalizing w with
  | nil => exact pure ()
  | cons b bs ih =>
    have hrest : ∀ w', I w' → D.Keeps pid (Process.forEach f bs) w' := fun w' hi' =>
      ih hi' fun b' hb' => hf b' (List.mem_cons_of_mem b hb')
    exact frame hI (hf b List.mem_cons_self w hi) hi fun _ w' hi' => hrest w' hi'

/-- What the first part of a request finds out and no effect falsifies is known to the rest. -/
theorem learn {I : β → World σ ω → Prop} {p : Process ι σ ω ε β} {k : β → Process ι σ ω ε α}
    (hp : Ensures D.contract pid (fun r w => ∀ b, r = .ok b → I b w) p w)
    (hk : ∀ b w', I b w' → D.Keeps pid (k b) w') : D.Keeps pid (p >>= k) w := by
  apply Ensures.bind
  apply hp.mono
  intro r w' _ hr
  cases r with
  | ok b => exact hk b w' (hr b rfl)
  | error e => exact fun _ _ _ => True.intro

/-- What one action finds out and no effect falsifies is known from then on. -/
theorem learned {m : ι → Transaction σ ε β} {observe : Except ε β → List ω}
    {I : World σ ω → Prop} {J : β → World σ ω → Prop} (hI : D.Stable I) (hi : I w)
    (h : D.Keeps pid (Process.atomically m observe) w) (hJ : ∀ b, D.Stable (J b))
    (hfound : ∀ w' i b s', D.inv w' → I w' → m i w'.store = .ok (b, s') →
      J b (w'.advance pid (s', observe (.ok b)))) :
    Ensures D.contract pid (fun r w => ∀ b, r = .ok b → J b w) (Process.atomically m observe) w := by
  intro w' hw hinv i
  obtain ⟨hinv', heffect, -⟩ := h w' hw hinv i
  refine ⟨hinv', heffect, ?_⟩
  cases hm : m i w'.store with
  | error e =>
    simp only [hm]
    exact Ensures.fail fun _ _ _ _ h => by cases h
  | ok r =>
    have hlater := hfound w' i r.1 r.2 hinv (Contract.concurrent_stable hI hw hi) hm
    simp only [hm]
    refine Ensures.done fun w'' hw' _ b heq => ?_
    cases heq
    exact Contract.concurrent_stable (hJ r.1) hw' hlater

theorem map {g : α → β} {p : Process ι σ ω ε α} (h : D.Keeps pid p w) : D.Keeps pid (g <$> p) w :=
  Ensures.map h

/-- A transaction whose commit is an effect, given what the request knows; a failed
one leaves no trace. -/
theorem commit_known {m : ι → Transaction σ ε β} {observe : Except ε β → List ω}
    {k : β → Process ι σ ω ε α} {I : World σ ω → Prop} (hI : D.Stable I) (hi : I w)
    (hquiet : ∀ e, observe (.error e) = [])
    (heffect : ∀ w' i b s', D.inv w' → I w' → m i w'.store = .ok (b, s') →
      D.effect pid w' (w'.advance pid (s', observe (.ok b))))
    (hk : ∀ b w', D.Keeps pid (k b) w') : D.Keeps pid (Process.atomically m observe >>= k) w := by
  refine Ensures.atomically_quiet (D.idle pid) hquiet (fun w' hw hinv i b s' hm => ?_)
    fun _ _ _ _ _ _ _ _ _ => True.intro
  have he := heffect w' i b s' hinv (Contract.concurrent_stable hI hw hi) hm
  exact ⟨D.kept _ _ _ he hinv, he, hk b _⟩

theorem commit {m : ι → Transaction σ ε β} {observe : Except ε β → List ω}
    {k : β → Process ι σ ω ε α} (hquiet : ∀ e, observe (.error e) = [])
    (heffect : ∀ w' i b s', m i w'.store = .ok (b, s') →
      D.effect pid w' (w'.advance pid (s', observe (.ok b))))
    (hk : ∀ b w', D.Keeps pid (k b) w') : D.Keeps pid (Process.atomically m observe >>= k) w :=
  commit_known D.stable_true True.intro hquiet
    (fun w' i b s' _ _ h => heffect w' i b s' h) hk

end Keeps
end Discipline
end Interleaving
