import EmbedNfs.Lib.Program
import Mathlib.Data.List.Basic

/-!
# Interleaved runs and a rely-guarantee logic

A `Config` is a shared state with a list of threads, each a program. A `Run` lets any
thread take its next call, in any order and any number of times, and records every call as
an `Event`. Requests that arrive later are threads that have not moved yet, so a statement
about all runs from all thread lists covers every arrival order.

A `Resolver` picks one answer for every call, and `Resolver.play` computes the run in which
the threads move as a schedule says.

Two rules reason about runs.

* `Run.invariant`: a property of the state kept by the surroundings and by the events of
  the trace holds in the final state.
* `Run.contract`: a `Contract` fixes an invariant, what a thread relies on the others for
  and what it guarantees about its own calls. `Safe` is the weakest condition under which a
  program keeps its part whatever the others do within the rely. What is relied on may
  depend on a phase which the thread's own calls move along.
-/

namespace EmbedNfs

variable {C : Type} {R : C → Type} {σ α β : Type}

/-- One call of a run: who made it, the states around it, and the answer. -/
structure Event (C : Type) (R : C → Type) (σ : Type) where
  thread : Nat
  before : σ
  call : C
  answer : R call
  after : σ

/-- A shared state and the threads that act on it. -/
structure Config (C : Type) (R : C → Type) (σ α : Type) where
  state : σ
  threads : List (Program C R α)

namespace System

/-- Runs of the interleaved threads, with the trace of calls made. -/
inductive Run (sys : System C R σ) :
    Config C R σ α → List (Event C R σ) → Config C R σ α → Prop where
  | nil (c : Config C R σ α) : Run sys c [] c
  | env {c : Config C R σ α} {tr : List (Event C R σ)} {s s' : σ} {ts : List (Program C R α)}
      (hrun : Run sys c tr ⟨s, ts⟩) (henv : sys.env s s') : Run sys c tr ⟨s', ts⟩
  | step {c : Config C R σ α} {tr : List (Event C R σ)} {s s' : σ} {ts : List (Program C R α)}
      {t : Nat} {q : C} {k : R q → Program C R α} {r : R q}
      (hrun : Run sys c tr ⟨s, ts⟩) (hthread : ts[t]? = some (.call q k))
      (hexec : sys.exec s q r s') : Run sys c (tr ++ [⟨t, s, q, r, s'⟩]) ⟨s', ts.set t (k r)⟩

variable {sys : System C R σ} {c c' c'' : Config C R σ α} {tr tr' : List (Event C R σ)}

theorem Run.trans (h : sys.Run c tr c') (h' : sys.Run c' tr' c'') : sys.Run c (tr ++ tr') c'' := by
  induction h' with
  | nil => simpa using h
  | env _ henv ih => exact .env ih henv
  | step _ hthread hexec ih =>
    rw [← List.append_assoc]
    exact .step ih hthread hexec

theorem Run.split (h : sys.Run c (tr ++ tr') c'') :
    ∃ m, sys.Run c tr m ∧ sys.Run m tr' c'' := by
  generalize htr : tr ++ tr' = tr₀ at h
  induction h generalizing tr' with
  | nil =>
    obtain ⟨rfl, rfl⟩ := List.append_eq_nil_iff.mp htr
    exact ⟨c, .nil c, .nil c⟩
  | env _ henv ih =>
    obtain ⟨m, h₁, h₂⟩ := ih htr
    exact ⟨m, h₁, .env h₂ henv⟩
  | step hrun hthread hexec ih =>
    rcases List.eq_nil_or_concat tr' with rfl | ⟨tr₂, e, rfl⟩
    · simp only [List.append_nil] at htr
      subst htr
      exact ⟨_, .step hrun hthread hexec, .nil _⟩
    · rw [List.concat_eq_append, ← List.append_assoc] at htr
      obtain ⟨rfl, he⟩ := List.append_inj' htr rfl
      obtain ⟨m, h₁, h₂⟩ := ih rfl
      refine ⟨m, h₁, ?_⟩
      rw [List.concat_eq_append, he]
      exact .step h₂ hthread hexec

/-- The last event of a run: the thread it is of, and the runs before and after it. -/
theorem Run.last {e : Event C R σ} (h : sys.Run c (tr ++ [e]) c') :
    ∃ ts k, sys.Run c tr ⟨e.before, ts⟩ ∧ ts[e.thread]? = some (.call e.call k) ∧
      sys.exec e.before e.call e.answer e.after ∧
      sys.Run ⟨e.after, ts.set e.thread (k e.answer)⟩ [] c' := by
  generalize htr : tr ++ [e] = tr₀ at h
  induction h with
  | nil => simp at htr
  | env _ henv ih =>
    obtain ⟨ts, k, hbefore, hthread, hexec, hafter⟩ := ih htr
    exact ⟨ts, k, hbefore, hthread, hexec, .env hafter henv⟩
  | step hrun hthread hexec ih =>
    obtain ⟨rfl, he⟩ := List.append_inj' htr rfl
    cases he
    exact ⟨_, _, hrun, hthread, hexec, .nil _⟩

/-- Any event of a run: the thread it is of, and the runs before and after it. -/
theorem Run.at_event {e : Event C R σ} (h : sys.Run c (tr ++ e :: tr') c'') :
    ∃ ts k, sys.Run c tr ⟨e.before, ts⟩ ∧ ts[e.thread]? = some (.call e.call k) ∧
      sys.exec e.before e.call e.answer e.after ∧
      sys.Run ⟨e.after, ts.set e.thread (k e.answer)⟩ tr' c'' := by
  have h' : sys.Run c ((tr ++ [e]) ++ tr') c'' := by simpa using h
  obtain ⟨m, hfirst, hrest⟩ := h'.split
  obtain ⟨ts, k, hbefore, hthread, hexec, hafter⟩ := hfirst.last
  have hjoin := hafter.trans hrest
  exact ⟨ts, k, hbefore, hthread, hexec, hjoin⟩

theorem Run.length_threads (h : sys.Run c tr c') : c'.threads.length = c.threads.length := by
  induction h with
  | nil => rfl
  | env _ _ ih => exact ih
  | step _ _ _ ih => simpa using ih

theorem Run.exec (h : sys.Run c tr c') {e : Event C R σ} (he : e ∈ tr) :
    sys.exec e.before e.call e.answer e.after := by
  induction h with
  | nil => cases he
  | env _ _ ih => exact ih he
  | step _ _ hexec ih =>
    rcases List.mem_append.mp he with he | he
    · exact ih he
    · rw [List.mem_singleton.mp he]
      exact hexec

/-- **Invariant rule.** A property kept by the surroundings and by every event of the trace
holds in the final state. -/
theorem Run.invariant {I : σ → Prop} (h : sys.Run c tr c') (h₀ : I c.state)
    (henv : ∀ s s', I s → sys.env s s' → I s')
    (hstep : ∀ e ∈ tr, sys.exec e.before e.call e.answer e.after → I e.before → I e.after) :
    I c'.state := by
  induction h with
  | nil => exact h₀
  | env _ henv' ih => exact henv _ _ (ih hstep) henv'
  | step _ _ hexec ih =>
    have hs := ih fun e he => hstep e (List.mem_append_left _ he)
    exact hstep _ (List.mem_append_right _ (List.mem_singleton.mpr rfl)) hexec hs

/-- The property of `Run.invariant` holds around every event as well. -/
theorem Run.invariant_event {I : σ → Prop} (h : sys.Run c tr c') (h₀ : I c.state)
    (henv : ∀ s s', I s → sys.env s s' → I s')
    (hstep : ∀ e ∈ tr, sys.exec e.before e.call e.answer e.after → I e.before → I e.after)
    {e : Event C R σ} (he : e ∈ tr) : I e.before ∧ I e.after := by
  induction h with
  | nil => cases he
  | env _ _ ih => exact ih hstep he
  | step hrun _ hexec ih =>
    have hstep' := fun e he => hstep e (List.mem_append_left _ he)
    rcases List.mem_append.mp he with he | he
    · exact ih hstep' he
    · rw [List.mem_singleton.mp he]
      have hs := hrun.invariant h₀ henv hstep'
      exact ⟨hs, hstep _ (List.mem_append_right _ (List.mem_singleton.mpr rfl)) hexec hs⟩

/-- `Run.invariant` for properties of the state and the threads together. -/
theorem Run.invariant_config {I : Config C R σ α → Prop} (h : sys.Run c tr c') (h₀ : I c)
    (henv : ∀ s s' ts, I ⟨s, ts⟩ → sys.env s s' → I ⟨s', ts⟩)
    (hstep : ∀ e ∈ tr, sys.exec e.before e.call e.answer e.after → ∀ ts k,
      ts[e.thread]? = some (.call e.call k) → I ⟨e.before, ts⟩ →
        I ⟨e.after, ts.set e.thread (k e.answer)⟩) : I c' := by
  induction h with
  | nil => exact h₀
  | env _ henv' ih => exact henv _ _ _ (ih hstep) henv'
  | step _ hthread hexec ih =>
    have hs := ih fun e he => hstep e (List.mem_append_left _ he)
    exact hstep _ (List.mem_append_right _ (List.mem_singleton.mpr rfl)) hexec _ _ hthread hs

/-- `Run.invariant` for properties of the state that mention the trace so far. -/
theorem Run.invariant_trace {I : List (Event C R σ) → σ → Prop} (h : sys.Run c tr c')
    (h₀ : I [] c.state) (henv : ∀ tr s s', I tr s → sys.env s s' → I tr s')
    (hstep : ∀ tr e, sys.exec e.before e.call e.answer e.after → I tr e.before →
      I (tr ++ [e]) e.after) : I tr c'.state := by
  induction h with
  | nil => exact h₀
  | env _ henv' ih => exact henv _ _ _ ih henv'
  | step _ _ hexec ih => exact hstep _ _ hexec ih

/-- `Run.invariant_trace` for properties whose step needs the run up to the event. -/
theorem Run.invariant_history {I : List (Event C R σ) → σ → Prop} (h : sys.Run c tr c')
    (h₀ : I [] c.state) (henv : ∀ tr s s', I tr s → sys.env s s' → I tr s')
    (hstep : ∀ tr e c', sys.Run c (tr ++ [e]) c' →
      sys.exec e.before e.call e.answer e.after → I tr e.before → I (tr ++ [e]) e.after) :
    I tr c'.state := by
  induction h with
  | nil => exact h₀
  | env _ henv' ih => exact henv _ _ _ ih henv'
  | step hrun hthread hexec ih => exact hstep _ _ _ (.step hrun hthread hexec) hexec ih

/-- What a thread's own steps keep of its program is kept in the run. -/
theorem Run.thread {T : Program C R α → Prop} {t : Nat} {p : Program C R α}
    (h : sys.Run c tr c') (hp : c.threads[t]? = some p) (hT : T p)
    (hstep : ∀ e ∈ tr, e.thread = t → ∀ k, T (.call e.call k) → T (k e.answer)) :
    ∃ p', c'.threads[t]? = some p' ∧ T p' := by
  refine h.invariant_config (I := fun c => ∃ p', c.threads[t]? = some p' ∧ T p') ⟨p, hp, hT⟩
    (fun _ _ _ h _ => h) ?_
  rintro e he - ts k hthread ⟨p', hp', hT'⟩
  by_cases ht : e.thread = t
  · rw [ht] at hthread ⊢
    cases hthread.symm.trans hp'
    exact ⟨k e.answer, List.getElem?_set_self (List.getElem?_eq_some_iff.mp hthread).1,
      hstep e he ht k hT'⟩
  · exact ⟨p', (List.getElem?_set_ne ht).trans hp', hT'⟩

/-- A thread on the considered paths makes only the calls that they allow: the answers that
matter for a call are the thread's earlier ones. -/
theorem Run.call_along {may : (c : C) → R c → Prop} {P : C → Prop} {Q : α → Prop}
    {p : Program C R α} {e : Event C R σ} (h : sys.Run c (tr ++ e :: tr') c'')
    (hp : c.threads[e.thread]? = some p)
    (hmay : ∀ e' ∈ tr, e'.thread = e.thread → may e'.call e'.answer)
    (halong : p.Along may P Q) : P e.call := by
  obtain ⟨ts, k, hbefore, hthread, -, -⟩ := h.at_event
  obtain ⟨p', hp', halong'⟩ := hbefore.thread (T := fun p => p.Along may P Q) hp halong
    fun e' he' ht k hk => hk.2 e'.answer (hmay e' he' ht)
  cases hthread.symm.trans hp'
  exact halong'.1

/-- A thread whose answers are all among the considered ones stays on the considered paths. -/
theorem Run.along {may : (c : C) → R c → Prop} {P : C → Prop} {Q : α → Prop} {t : Nat}
    {p : Program C R α} (h : sys.Run c tr c') (hp : c.threads[t]? = some p)
    (hmay : ∀ e ∈ tr, e.thread = t → may e.call e.answer) (halong : p.Along may P Q) :
    (∀ e ∈ tr, e.thread = t → P e.call) ∧
      ∃ p', c'.threads[t]? = some p' ∧ p'.Along may P Q := by
  refine ⟨fun e he ht => ?_, h.thread (T := fun p => p.Along may P Q) hp halong
    fun e he ht k hk => hk.2 e.answer (hmay e he ht)⟩
  obtain ⟨tr₁, tr₂, rfl⟩ := List.append_of_mem he
  subst ht
  exact h.call_along hp (fun e' he' => hmay e' (List.mem_append_left _ he')) halong

theorem Run.thread_of_event {e : Event C R σ} (h : sys.Run c (tr ++ e :: tr') c'') :
    ∃ p, c.threads[e.thread]? = some p := by
  obtain ⟨ts, k, hbefore, hthread, -, -⟩ := h.at_event
  have hlt := (List.getElem?_eq_some_iff.mp hthread).1
  have hlength := hbefore.length_threads
  rw [hlength] at hlt
  exact ⟨_, List.getElem?_eq_getElem hlt⟩

/-- A thread that has had its last answer has returned the value for it. -/
theorem Run.closes {final : (c : C) → R c → Option α} {t : Nat} {p : Program C R α}
    (h : sys.Run c tr c') (hp : c.threads[t]? = some p) (hcloses : p.Closes final) :
    (∃ p', c'.threads[t]? = some p' ∧ p'.Closes final) ∧
      ∀ e ∈ tr, e.thread = t → ∀ a, final e.call e.answer = some a →
        c'.threads[t]? = some (.ret a) := by
  induction h with
  | nil => exact ⟨⟨p, hp, hcloses⟩, fun e he => (List.not_mem_nil he).elim⟩
  | env _ _ ih => exact ih
  | @step tr s s' ts u q k r hrun hthread hexec ih =>
    obtain ⟨⟨p', hp', hcloses'⟩, hfinal⟩ := ih
    by_cases hu : u = t
    · subst hu
      cases hthread.symm.trans hp'
      have hself : (ts.set u (k r))[u]? = some (k r) :=
        List.getElem?_set_self (List.getElem?_eq_some_iff.mp hthread).1
      have hr := hcloses' r
      refine ⟨⟨k r, hself, ?_⟩, fun e he het a ha => ?_⟩
      · split at hr
        · rw [hr]
          exact True.intro
        · exact hr
      · rcases List.mem_append.mp he with he | he
        · -- The thread has moved since, so it had not returned.
          cases hthread.symm.trans (hfinal e he het a ha)
        · rw [List.mem_singleton.mp he] at ha
          rw [show final q r = some a from ha] at hr
          exact hself.trans (congrArg some hr)
    · have hne := List.getElem?_set_ne (a := k r) (l := ts) hu
      refine ⟨⟨p', hne.trans hp', hcloses'⟩, fun e he het a ha => ?_⟩
      rcases List.mem_append.mp he with he | he
      · exact hne.trans (hfinal e he het a ha)
      · rw [List.mem_singleton.mp he] at het
        exact absurd het hu

/-- A thread that has returned has made the call that was inevitable, unless it had an answer
that is not considered. -/
theorem Run.inevitable {goal : C → Prop} {may : (c : C) → R c → Prop} {t : Nat}
    {p : Program C R α} {a : α} (h : sys.Run c tr c') (hp : c.threads[t]? = some p)
    (hgoal : p.Inevitable goal may) (hreturned : c'.threads[t]? = some (.ret a)) :
    ∃ e ∈ tr, e.thread = t ∧ (goal e.call ∨ ¬may e.call e.answer) := by
  by_contra hnone
  push Not at hnone
  obtain ⟨p', hp', hgoal'⟩ := h.thread (T := fun p => p.Inevitable goal may) hp hgoal
    fun e he ht k hk => hk.elim (fun hc => absurd hc (hnone e he ht).1)
      fun hk => hk e.answer (hnone e he ht).2
  cases hreturned.symm.trans hp'
  exact hgoal'

/-- After an answer with `after`, the thread goes on with a program that has `T`. -/
theorem Run.whenever {after : (c : C) → R c → Prop} {T : Program C R α → Prop}
    {p : Program C R α} {e : Event C R σ} (h : sys.Run c (tr ++ e :: tr') c'')
    (hp : c.threads[e.thread]? = some p) (hT : p.Whenever after T)
    (hafter : after e.call e.answer) :
    ∃ ts p', ts[e.thread]? = some p' ∧ T p' ∧ sys.Run ⟨e.after, ts⟩ tr' c'' := by
  obtain ⟨ts, k, hbefore, hthread, -, hrest⟩ := h.at_event
  obtain ⟨p', hp', hT'⟩ := hbefore.thread (T := fun p => p.Whenever after T) hp hT
    fun e' _ _ _ hk => (hk e'.answer).2
  cases hthread.symm.trans hp'
  exact ⟨_, k e.answer, List.getElem?_set_self (List.getElem?_eq_some_iff.mp hthread).1,
    (hT' e.answer).1 hafter, hrest⟩

end System

/-! ## Scripted runs -/

/-- One allowed answer for every call in every state. -/
structure System.Resolver (sys : System C R σ) where
  answer : σ → (c : C) → R c × σ
  exec : ∀ s c, sys.exec s c (answer s c).1 (answer s c).2

namespace System.Resolver

variable {sys : System C R σ} (res : sys.Resolver)

/-- Let thread `t` make its next call, if it has one left. -/
def step (c : Config C R σ α) (t : Nat) : List (Event C R σ) × Config C R σ α :=
  match c.threads[t]? with
  | some (.call q k) =>
    let (r, s) := res.answer c.state q
    ([⟨t, c.state, q, r, s⟩], ⟨s, c.threads.set t (k r)⟩)
  | _ => ([], c)

/-- Let threads move in the order of a schedule. -/
def play (c : Config C R σ α) : List Nat → List (Event C R σ) × Config C R σ α
  | [] => ([], c)
  | t :: schedule =>
    let (tr, c) := res.step c t
    let (tr', c) := play c schedule
    (tr ++ tr', c)

theorem step_run (c : Config C R σ α) (t : Nat) : sys.Run c (res.step c t).1 (res.step c t).2 := by
  unfold step
  split
  · rename_i q k hthread
    exact .step (.nil c) hthread (res.exec c.state q)
  · exact .nil c

theorem play_run (c : Config C R σ α) (schedule : List Nat) :
    sys.Run c (res.play c schedule).1 (res.play c schedule).2 := by
  induction schedule generalizing c with
  | nil => exact .nil c
  | cons t schedule ih => exact (res.step_run c t).trans (ih (res.step c t).2)

/-- The events of a scripted run have the resolver's answers. -/
theorem answer_of_mem_play (c : Config C R σ α) (schedule : List Nat) {e : Event C R σ}
    (he : e ∈ (res.play c schedule).1) : e.answer = (res.answer e.before e.call).1 := by
  induction schedule generalizing c with
  | nil => cases he
  | cons t schedule ih =>
    rcases List.mem_append.mp he with he | he
    · change e ∈ (res.step c t).1 at he
      unfold step at he
      split at he
      · rw [List.mem_singleton.mp he]
      · cases he
    · exact ih _ he

theorem threads_play (c : Config C R σ α) {schedule : List Nat} {u : Nat} (hu : u ∉ schedule) :
    (res.play c schedule).2.threads[u]? = c.threads[u]? := by
  induction schedule generalizing c with
  | nil => rfl
  | cons t schedule ih =>
    simp only [List.mem_cons, not_or] at hu
    obtain ⟨hne, hu⟩ := hu
    refine (ih _ hu).trans ?_
    show (res.step c t).2.threads[u]? = c.threads[u]?
    unfold step
    split
    · exact List.getElem?_set_ne (Ne.symm hne)
    · rfl

end System.Resolver

/-! ## Contracts -/

/-- What holds in every state, what a thread relies on in each phase, and what it
guarantees. -/
structure Contract (C : Type) (R : C → Type) (σ M : Type) where
  inv : σ → Prop
  /-- The phase after one of the thread's own calls. -/
  phase : M → (c : C) → R c → M
  /-- What the other threads may do to the state during a phase. -/
  rely : M → σ → σ → Prop
  /-- What the thread's own call made in a phase satisfies. -/
  guar : M → σ → (c : C) → R c → σ → Prop
  rely_refl : ∀ m s, rely m s s
  rely_trans : ∀ m s s' s'', rely m s s' → rely m s' s'' → rely m s s''

namespace Contract

variable {M : Type} (ct : Contract C R σ M) (sys : System C R σ)

/-- From `s` in phase `m`, the program keeps the contract and can only end in `Q`. -/
def Safe (Q : M → α → σ → Prop) : M → Program C R α → σ → Prop
  | m, .ret a, s => ∀ s', ct.inv s' → ct.rely m s s' → Q m a s'
  | m, .call c k, s => ∀ s', ct.inv s' → ct.rely m s s' → ∀ r s'', sys.exec s' c r s'' →
      ct.inv s'' → ct.guar m s' c r s'' ∧ Safe Q (ct.phase m c r) (k r) s''

variable {ct sys} {Q Q' : M → α → σ → Prop}

theorem Safe.rely {m : M} {p : Program C R α} {s s' : σ} (h : ct.Safe sys Q m p s)
    (hs : ct.rely m s s') : ct.Safe sys Q m p s' := by
  cases p with
  | ret a => exact fun s'' hi hr => h s'' hi (ct.rely_trans _ _ _ _ hs hr)
  | call c k => exact fun s'' hi hr => h s'' hi (ct.rely_trans _ _ _ _ hs hr)

theorem Safe.of_forall_rely {m : M} {p : Program C R α} {s : σ}
    (h : ∀ s', ct.inv s' → ct.rely m s s' → ct.Safe sys Q m p s') : ct.Safe sys Q m p s := by
  cases p with
  | ret a => exact fun s' hi hr => h s' hi hr s' hi (ct.rely_refl _ _)
  | call c k => exact fun s' hi hr => h s' hi hr s' hi (ct.rely_refl _ _)

theorem Safe.mono {m : M} {p : Program C R α} {s : σ} (h : ct.Safe sys Q m p s)
    (hQ : ∀ m a s, ct.inv s → Q m a s → Q' m a s) : ct.Safe sys Q' m p s := by
  induction p generalizing m s with
  | ret a => exact fun s' hi hr => hQ _ _ _ hi (h s' hi hr)
  | call c k ih =>
    intro s' hi hr r s'' hexec hi'
    obtain ⟨hg, hk⟩ := h s' hi hr r s'' hexec hi'
    exact ⟨hg, ih r hk⟩

theorem Safe.bind {m : M} {p : Program C R β} {f : β → Program C R α} {s : σ}
    (h : ct.Safe sys (fun m b s => ct.Safe sys Q m (f b) s) m p s) :
    ct.Safe sys Q m (p >>= f) s := by
  induction p generalizing m s with
  | ret b =>
    rw [Program.ret_bind]
    refine of_forall_rely fun s' hi hr => h s' hi hr
  | call c k ih =>
    rw [Program.call_bind]
    intro s' hi hr r s'' hexec hi'
    obtain ⟨hg, hk⟩ := h s' hi hr r s'' hexec hi'
    exact ⟨hg, ih r hk⟩

/-- One call is safe if its effect is, and if the answer stays right while the others act
within the rely. -/
theorem Safe.perform {m : M} {c : C} {Q : M → R c → σ → Prop} {s : σ}
    (h : ∀ s', ct.inv s' → ct.rely m s s' → ∀ r s'', sys.exec s' c r s'' → ct.inv s'' →
      ct.guar m s' c r s'' ∧
        ∀ u, ct.inv u → ct.rely (ct.phase m c r) s'' u → Q (ct.phase m c r) r u) :
    ct.Safe sys Q m (Program.perform c) s := h

/-- A property that every step keeps survives any program. -/
theorem Safe.of_stable {P : σ → Prop} (hrely : ∀ m s s', P s → ct.rely m s s' → P s')
    (hstep : ∀ m s c r s', P s → sys.exec s c r s' → ct.guar m s c r s' ∧ P s')
    {m : M} {p : Program C R α} {s : σ} (hs : P s) :
    ct.Safe sys (fun _ _ s => P s) m p s := by
  induction p generalizing m s with
  | ret a => exact fun s' _ hr => hrely m s s' hs hr
  | call c k ih =>
    intro s' _ hr r s'' hexec _
    obtain ⟨hg, hs''⟩ := hstep m s' c r s'' (hrely m s s' hs hr) hexec
    exact ⟨hg, ih r hs''⟩

/-- A program whose calls keep `J` keeps it, and returns what it returns along the answers that
can come. -/
theorem Safe.along {may : (c : C) → R c → Prop} {P : C → Prop} {Q' : α → Prop}
    {J : M → σ → Prop} {p : Program C R α} (hp : p.Along may P Q')
    (hmay : ∀ s c r s', ct.inv s → sys.exec s c r s' → may c r)
    (hrely : ∀ m s s', J m s → ct.rely m s s' → J m s')
    (hstep : ∀ m s c r s', P c → ct.inv s → J m s → sys.exec s c r s' →
      ct.guar m s c r s' ∧ J (ct.phase m c r) s')
    {m : M} {s : σ} (hs : J m s) : ct.Safe sys (fun m a s => Q' a ∧ J m s) m p s := by
  induction p generalizing m s with
  | ret a => exact fun s' _ hr => ⟨hp, hrely m s s' hs hr⟩
  | call c k ih =>
    intro s' hi hr r s'' hexec _
    obtain ⟨hg, hs''⟩ := hstep m s' c r s'' hp.1 hi (hrely m s s' hs hr) hexec
    exact ⟨hg, ih r (hp.2 r (hmay s' c r s'' hi hexec)) hs''⟩

/-- **Loop rule.** `J xs` holds while the elements `xs` are still to be done. -/
theorem Safe.each {f : β → Program C R Unit} (J : List β → M → σ → Prop)
    (hrely : ∀ m s s', J [] m s → ct.rely m s s' → J [] m s')
    (hstep : ∀ x xs m s, J (x :: xs) m s → ct.Safe sys (fun m _ s => J xs m s) m (f x) s)
    {xs : List β} {m : M} {s : σ} (hs : J xs m s) :
    ct.Safe sys (fun m _ s => J [] m s) m (Program.each xs f) s := by
  induction xs generalizing m s with
  | nil => exact fun s' _ hr => hrely m s s' hs hr
  | cons x xs ih => exact Safe.bind ((hstep x xs m s hs).mono fun m _ s _ h => ih h)

end Contract

/-- The phase a thread is in after a trace that it entered in phase `m`. -/
def Contract.phaseAfter {M : Type} (ct : Contract C R σ M) (t : Nat) (m : M)
    (tr : List (Event C R σ)) : M :=
  tr.foldl (fun m e => if e.thread = t then ct.phase m e.call e.answer else m) m

theorem Contract.phaseAfter_append {M : Type} (ct : Contract C R σ M) (t : Nat) (m : M)
    (tr tr' : List (Event C R σ)) :
    ct.phaseAfter t m (tr ++ tr') = ct.phaseAfter t (ct.phaseAfter t m tr) tr' :=
  List.foldl_append

/-- **Contract rule.** If the surroundings and the other threads stay within what thread `t`
relies on in its current phase, then a safe thread keeps its guarantee in every call it
makes, and what is left of it is safe. -/
theorem System.Run.contract {M : Type} {ct : Contract C R σ M} {sys : System C R σ}
    {c c' : Config C R σ α} {tr : List (Event C R σ)} {Q : M → α → σ → Prop} {t : Nat} {m : M}
    {p : Program C R α} (hrun : sys.Run c tr c') (hinv : ct.inv c.state)
    (henv : ∀ m s s', ct.inv s → sys.env s s' → ct.inv s' ∧ ct.rely m s s')
    (hstep : ∀ tr₁ e tr₂, tr = tr₁ ++ e :: tr₂ → ct.inv e.before →
      sys.exec e.before e.call e.answer e.after →
        ct.inv e.after ∧ (e.thread ≠ t → ct.rely (ct.phaseAfter t m tr₁) e.before e.after))
    (hp : c.threads[t]? = some p) (hsafe : ct.Safe sys Q m p c.state) :
    ct.inv c'.state ∧
    (∀ tr₁ e tr₂, tr = tr₁ ++ e :: tr₂ → e.thread = t →
      ct.guar (ct.phaseAfter t m tr₁) e.before e.call e.answer e.after) ∧
    ∃ p', c'.threads[t]? = some p' ∧ ct.Safe sys Q (ct.phaseAfter t m tr) p' c'.state := by
  induction hrun with
  | nil => exact ⟨hinv, fun tr₁ e tr₂ h => by simp at h, p, hp, hsafe⟩
  | env _ henv' ih =>
    obtain ⟨hi, hg, p', hp', hs⟩ := ih hstep
    obtain ⟨hi', hr⟩ := henv (ct.phaseAfter t m _) _ _ hi henv'
    exact ⟨hi', hg, p', hp', hs.rely hr⟩
  | @step tr₀ s s' ts u q k r hrun hthread hexec ih =>
    obtain ⟨hi, hg, p', hp', hs⟩ := ih fun tr₁ e tr₂ h =>
      hstep tr₁ e (tr₂ ++ [⟨u, s, q, r, s'⟩]) (by rw [h]; simp)
    obtain ⟨hi', hrely⟩ := hstep tr₀ ⟨u, s, q, r, s'⟩ [] rfl hi hexec
    have hcut : ∀ tr₁ e tr₂, tr₀ ++ [⟨u, s, q, r, s'⟩] = tr₁ ++ e :: tr₂ →
        (∃ tr₂', tr₀ = tr₁ ++ e :: tr₂') ∨ (tr₁ = tr₀ ∧ e = ⟨u, s, q, r, s'⟩) := by
      intro tr₁ e tr₂ h
      rcases List.eq_nil_or_concat tr₂ with rfl | ⟨tr₂', e', rfl⟩
      · obtain ⟨h₁, h₂⟩ := List.append_inj' h rfl
        exact Or.inr ⟨h₁.symm, (List.cons.inj h₂).1.symm⟩
      · have h' : tr₀ ++ [⟨u, s, q, r, s'⟩] = (tr₁ ++ e :: tr₂') ++ [e'] := by simpa using h
        exact Or.inl ⟨tr₂', (List.append_inj' h' rfl).1⟩
    by_cases hu : u = t
    · subst hu
      rw [hthread] at hp'
      cases hp'
      obtain ⟨hgu, hk⟩ := hs s hi (ct.rely_refl _ _) r s' hexec hi'
      refine ⟨hi', ?_, k r, ?_, ?_⟩
      · intro tr₁ e tr₂ h he
        rcases hcut tr₁ e tr₂ h with ⟨tr₂', h'⟩ | ⟨rfl, rfl⟩
        · exact hg tr₁ e tr₂' h' he
        · exact hgu
      · rw [List.getElem?_set_self (List.getElem?_eq_some_iff.mp hthread).1]
      · rw [ct.phaseAfter_append]
        simpa [Contract.phaseAfter] using hk
    · refine ⟨hi', ?_, p', ?_, ?_⟩
      · intro tr₁ e tr₂ h he
        rcases hcut tr₁ e tr₂ h with ⟨tr₂', h'⟩ | ⟨rfl, rfl⟩
        · exact hg tr₁ e tr₂' h' he
        · exact absurd he hu
      · rw [List.getElem?_set_ne hu]
        exact hp'
      · rw [ct.phaseAfter_append]
        simpa [Contract.phaseAfter, hu] using hs.rely (hrely hu)

end EmbedNfs
