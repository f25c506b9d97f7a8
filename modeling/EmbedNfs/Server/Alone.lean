import EmbedNfs.Server.Objects
import EmbedNfs.Lib.Interleaving

/-!
# Requests that run alone

A request that makes calls on the state manager only, run with nothing else going on and the clock
standing still, is a function of the state. `Request.alone` computes it, and `Request.events` the
steps; calls that the outside answers have no result. `alone_run` says that this is one of the runs
of the server.
-/

namespace EmbedNfs

variable {H α β : Type}

/-- The result and the state that the request leaves when it runs alone. -/
def Request.alone : Request H α → Server H → Option (α × Server H)
  | .ret a, s => some (a, s)
  | .call (.guarded c) k, s =>
    Request.alone (k (s.state.runSection c).1) { s with state := (s.state.runSection c).2 }
  | .call (.mapOp c) k, s =>
    Request.alone (k (s.state.runMapOp c).1) { s with state := (s.state.runMapOp c).2 }
  | .call _ _, _ => none

/-- The steps that the request takes when it runs alone, as thread 0. -/
def Request.events : Request H α → Server H → Trace H
  | .ret _, _ => []
  | .call (.guarded c) k, s =>
    ⟨0, s, .guarded c, (s.state.runSection c).1, { s with state := (s.state.runSection c).2 }⟩ ::
      Request.events (k (s.state.runSection c).1) { s with state := (s.state.runSection c).2 }
  | .call (.mapOp c) k, s =>
    ⟨0, s, .mapOp c, (s.state.runMapOp c).1, { s with state := (s.state.runMapOp c).2 }⟩ ::
      Request.events (k (s.state.runMapOp c).1) { s with state := (s.state.runMapOp c).2 }
  | .call _ _, _ => []

namespace Request

@[simp] theorem alone_ret (a : α) (s : Server H) : alone (.ret a) s = some (a, s) := rfl

@[simp] theorem alone_guarded (c : Section) (f : c.Ret → Request H α) (s : Server H) :
    alone (guarded c >>= f) s =
      alone (f (s.state.runSection c).1) { s with state := (s.state.runSection c).2 } := rfl

@[simp] theorem alone_mapOp (c : MapOp) (f : c.Ret → Request H α) (s : Server H) :
    alone (mapOp c >>= f) s =
      alone (f (s.state.runMapOp c).1) { s with state := (s.state.runMapOp c).2 } := rfl

theorem events_mapOp (c : MapOp) (f : c.Ret → Request H α) (s : Server H) :
    events (mapOp c >>= f) s =
      ⟨0, s, .mapOp c, (s.state.runMapOp c).1, { s with state := (s.state.runMapOp c).2 }⟩ ::
        events (f (s.state.runMapOp c).1) { s with state := (s.state.runMapOp c).2 } := rfl

theorem alone_bind (p : Request H α) (f : α → Request H β) (s : Server H) :
    alone (p >>= f) s = (alone p s).bind fun r => alone (f r.1) r.2 := by
  induction p generalizing s with
  | ret a => rfl
  | call c k ih =>
    cases c with
    | guarded c => exact ih _ _
    | mapOp c => exact ih _ _
    | _ => rfl

theorem alone_bind_of_eq {p : Request H α} {s s' : Server H} {a : α}
    (h : alone p s = some (a, s')) (f : α → Request H β) :
    alone (p >>= f) s = alone (f a) s' := by
  rw [alone_bind, h]
  rfl

theorem events_bind_of_eq {p : Request H α} {s s' : Server H} {a : α}
    (h : alone p s = some (a, s')) (f : α → Request H β) :
    events (p >>= f) s = events p s ++ events (f a) s' := by
  induction p generalizing s with
  | ret b =>
    cases h
    rfl
  | call c k ih =>
    cases c with
    | guarded c => exact congrArg _ (ih _ h)
    | mapOp c => exact congrArg _ (ih _ h)
    | _ => cases h

theorem alone_each {f : β → Request H Unit} {g : Server H → β → Server H}
    (h : ∀ b s, alone (f b) s = some ((), g s b)) (bs : List β) (s : Server H) :
    alone (Program.each bs f) s = some ((), bs.foldl g s) := by
  induction bs generalizing s with
  | nil => rfl
  | cons b bs ih =>
    show alone (f b >>= fun _ => Program.each bs f) s = _
    rw [alone_bind_of_eq (h b s), ih]
    rfl

/-- What holds of all the calls of a program holds of those it makes alone. -/
theorem forall_events {P : Call H → Prop} {p : Request H α} (h : p.All P) (s : Server H) :
    ∀ e ∈ events p s, P e.call := by
  induction p generalizing s with
  | ret a => exact fun e he => absurd he List.not_mem_nil
  | call c k ih =>
    cases c with
    | guarded c =>
      rintro e (_ | ⟨_, he⟩)
      · exact h.1
      · exact ih _ (h.2 _ trivial) _ e he
    | mapOp c =>
      rintro e (_ | ⟨_, he⟩)
      · exact h.1
      · exact ih _ (h.2 _ trivial) _ e he
    | _ => exact fun e he => absurd he List.not_mem_nil

theorem alone_run [DecidableEq H] {backend : Backend H} {p : Request H α} {s s' : Server H} {a : α}
    (h : alone p s = some (a, s')) :
    (Server.system backend).Run ⟨s, [p]⟩ (events p s) ⟨s', [.ret a]⟩ := by
  -- A first call, and then the rest of the request.
  have hcons : ∀ {s s₁ : Server H} {c : Call H} {k : c.Ret → Request H α} {r : c.Ret}
      {tr : Trace H}, (Server.system backend).exec s c r s₁ →
        (Server.system backend).Run ⟨s₁, [k r]⟩ tr ⟨s', [.ret a]⟩ →
        (Server.system backend).Run ⟨s, [.call c k]⟩ (⟨0, s, c, r, s₁⟩ :: tr) ⟨s', [.ret a]⟩ := by
    intro s s₁ c k r tr hexec hrest
    exact (System.Run.step (.nil _) (t := 0) rfl hexec).trans hrest
  induction p generalizing s with
  | ret b =>
    cases h
    exact .nil _
  | call c k ih =>
    cases c with
    | guarded c => exact hcons ⟨rfl, rfl⟩ (ih _ h)
    | mapOp c => exact hcons ⟨rfl, rfl⟩ (ih _ h)
    | _ => cases h

end Request

/-- A single thread goes on with what comes after the program. -/
theorem System.Run.bind_single {C : Type} {R : C → Type} {σ : Type} {sys : System C R σ} {s s' : σ}
    {tr : List (Event C R σ)} {p p' : Program C R α} (h : sys.Run ⟨s, [p]⟩ tr ⟨s', [p']⟩)
    (f : α → Program C R β) : sys.Run ⟨s, [p >>= f]⟩ tr ⟨s', [p' >>= f]⟩ := by
  generalize hc : (⟨s, [p]⟩ : Config C R σ α) = c at h
  generalize hc' : (⟨s', [p']⟩ : Config C R σ α) = c' at h
  induction h generalizing s' p' with
  | nil =>
    subst hc
    cases hc'
    exact .nil _
  | env _ henv ih =>
    cases hc'
    exact .env (ih rfl) henv
  | @step tr s₁ s₂ ts t q k r hrun hthread hexec ih =>
    subst hc
    obtain ⟨rfl, hts⟩ := Config.mk.inj hc'
    obtain ⟨p₁, rfl⟩ : ∃ p₁, ts = [p₁] := List.length_eq_one_iff.mp (hrun.length_threads)
    cases t with
    | zero =>
      cases hthread
      cases hts
      have hthread : [Program.call q k >>= f][0]? = some (.call q fun r => k r >>= f) := rfl
      exact .step (ih rfl) hthread hexec
    | succ t => cases hthread

end EmbedNfs
