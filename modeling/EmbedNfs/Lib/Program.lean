import Mathlib.Logic.Basic

/-!
# Programs over atomic calls

A `Program C R α` computes a result of type `α` by issuing calls: each call `c : C` is
answered by some `R c`, and the answer chooses how the program goes on. What a call does is
not fixed here. A `System` gives every call its effect on a shared state, as a relation,
and says what the surroundings may do to that state between two calls. A call is the unit
of atomicity: `EmbedNfs.Lib.Interleaving` lets threads take turns call by call.
-/

namespace EmbedNfs

/-- A computation that issues calls and continues with their answers. -/
inductive Program (C : Type) (R : C → Type) (α : Type) : Type where
  | ret (a : α) : Program C R α
  | call (c : C) (k : R c → Program C R α) : Program C R α

namespace Program

variable {C : Type} {R : C → Type} {α β γ : Type}

/-- Run `p`, then the continuation chosen by its result. -/
def bind : Program C R α → (α → Program C R β) → Program C R β
  | .ret a, f => f a
  | .call c k, f => .call c fun r => (k r).bind f

instance : Monad (Program C R) where
  pure := .ret
  bind := .bind

/-- Issue one call and return its answer. -/
def perform (c : C) : Program C R (R c) := .call c .ret

@[simp] theorem pure_eq (a : α) : (pure a : Program C R α) = .ret a := rfl

@[simp] theorem ret_bind (a : α) (f : α → Program C R β) : (ret a >>= f) = f a := rfl

@[simp] theorem call_bind (c : C) (k : R c → Program C R α) (f : α → Program C R β) :
    (call c k >>= f) = call c fun r => k r >>= f := rfl

@[simp] theorem perform_bind (c : C) (f : R c → Program C R β) :
    (perform c >>= f) = call c f := rfl

theorem bind_assoc (p : Program C R α) (f : α → Program C R β) (g : β → Program C R γ) :
    (p >>= f >>= g) = p >>= fun a => f a >>= g := by
  induction p with
  | ret a => rfl
  | call c k ih => simp only [call_bind, ih]

@[simp] theorem map_eq (f : α → β) (p : Program C R α) : (f <$> p) = p >>= fun a => ret (f a) :=
  rfl

/-- Issue calls for the elements of a list in order, ignoring the results. -/
def each (xs : List β) (f : β → Program C R Unit) : Program C R Unit :=
  match xs with
  | [] => .ret ()
  | x :: xs => f x >>= fun _ => each xs f

/-- The value of a program that has nothing left to do. -/
def result : Program C R α → Option α
  | .ret a => some a
  | .call _ _ => none

/-- Whether nothing is left to do. -/
def returned : Program C R α → Bool
  | .ret _ => true
  | .call _ _ => false

theorem of_returned {p : Option (Program C R α)} (h : p.any returned = true) :
    ∃ a, p = some (.ret a) := by
  cases p with
  | none => cases h
  | some p =>
    cases p with
    | ret a => exact ⟨a, rfl⟩
    | call c k => cases h

/-! ## Paths through a program

`may c r` says which answers are to be considered. -/

/-- Along the considered answers, the program only makes calls with `P` and only returns
values with `Q`. -/
def Along (may : (c : C) → R c → Prop) (P : C → Prop) (Q : α → Prop) : Program C R α → Prop
  | .ret a => Q a
  | .call c k => P c ∧ ∀ r, may c r → Along may P Q (k r)

/-- Along the considered answers, the program makes a call with `goal` before it returns. -/
def Inevitable (goal : C → Prop) (may : (c : C) → R c → Prop) : Program C R α → Prop
  | .ret _ => False
  | .call c k => goal c ∨ ∀ r, may c r → Inevitable goal may (k r)

/-- Whenever an answer has `after`, the rest of the program has `T`. -/
def Whenever (after : (c : C) → R c → Prop) (T : Program C R α → Prop) : Program C R α → Prop
  | .ret _ => True
  | .call c k => ∀ r, (after c r → T (k r)) ∧ Whenever after T (k r)

/-- Every call the program can make satisfies `P`. -/
abbrev All (P : C → Prop) (p : Program C R α) : Prop :=
  p.Along (fun _ _ => True) P fun _ => True

/-- Along the considered answers, the program only returns values with `Q`. -/
abbrev Ensures (may : (c : C) → R c → Prop) (Q : α → Prop) (p : Program C R α) : Prop :=
  p.Along may (fun _ => True) Q

variable {P P' goal : C → Prop} {may may' : (c : C) → R c → Prop} {Q Q' : α → Prop}

theorem Along.bind {Q' : β → Prop} {p : Program C R α} {f : α → Program C R β}
    (hp : p.Along may P Q) (hf : ∀ a, Q a → (f a).Along may P Q') :
    (p >>= f).Along may P Q' := by
  induction p with
  | ret a => exact hf a hp
  | call c k ih => exact ⟨hp.1, fun r hr => ih r (hp.2 r hr)⟩

theorem Along.mono {p : Program C R α} (hp : p.Along may P Q)
    (hmay : ∀ c r, may' c r → may c r) (hP : ∀ c, P c → P' c) (hQ : ∀ a, Q a → Q' a) :
    p.Along may' P' Q' := by
  induction p with
  | ret a => exact hQ a hp
  | call c k ih => exact ⟨hP c hp.1, fun r hr => ih r (hp.2 r (hmay c r hr))⟩

theorem Along.imp {p : Program C R α} (hp : p.Along may P Q) (hQ : ∀ a, Q a → Q' a) :
    p.Along may P Q' :=
  hp.mono (fun _ _ => id) (fun _ => id) hQ

theorem All.bind {p : Program C R α} {f : α → Program C R β} (hp : p.All P)
    (hf : ∀ a, (f a).All P) : (p >>= f).All P :=
  Along.bind hp fun a _ => hf a

theorem Along.discard {p : Program C R α} (hp : p.Along may P Q) :
    (discard p).Along may P fun _ => True :=
  hp.bind fun _ _ => trivial

theorem Along.each {xs : List β} {f : β → Program C R Unit}
    (hf : ∀ x ∈ xs, (f x).Along may P fun _ => True) :
    (each xs f).Along may P fun _ => True := by
  induction xs with
  | nil => trivial
  | cons x xs ih =>
    exact (hf x (List.mem_cons_self ..)).bind fun _ _ =>
      ih fun y hy => hf y (List.mem_cons_of_mem _ hy)

theorem Ensures.trivial (p : Program C R α) : p.Ensures may fun _ => True := by
  induction p with
  | ret a => exact True.intro
  | call c k ih => exact ⟨True.intro, fun r _ => ih r⟩

theorem Inevitable.bind {p : Program C R α} {f : α → Program C R β}
    (hp : p.Inevitable goal may) : (p >>= f).Inevitable goal may := by
  induction p with
  | ret a => exact hp.elim
  | call c k ih =>
    rcases hp with hc | hk
    · exact Or.inl hc
    · exact Or.inr fun r hr => ih r (hk r hr)

theorem Inevitable.of_ensures {p : Program C R α} {f : α → Program C R β}
    (hp : p.Ensures may Q) (hf : ∀ a, Q a → (f a).Inevitable goal may) :
    (p >>= f).Inevitable goal may := by
  induction p with
  | ret a => exact hf a hp
  | call c k ih => exact Or.inr fun r hr => ih r (hp.2 r hr)

theorem Inevitable.each {xs : List β} {f : β → Program C R Unit} {x : β} (hx : x ∈ xs)
    (hf : (f x).Inevitable goal may) : (each xs f).Inevitable goal may := by
  induction xs with
  | nil => cases hx
  | cons y xs ih =>
    rcases List.mem_cons.mp hx with rfl | hx
    · exact hf.bind
    · exact .of_ensures (.trivial (f y)) fun _ _ => ih hx

theorem Whenever.of_all {after : (c : C) → R c → Prop} {T : Program C R α → Prop}
    {p : Program C R α} (h : p.All fun c => ∀ r, ¬after c r) : p.Whenever after T := by
  induction p with
  | ret a => exact True.intro
  | call c k ih => exact fun r => ⟨fun hafter => absurd hafter (h.1 r), ih r (h.2 r True.intro)⟩

theorem Whenever.bind {after : (c : C) → R c → Prop} {p : Program C R α} {f : α → Program C R β}
    (hp : p.Whenever after (Inevitable goal may))
    (hf : ∀ a, (f a).Whenever after (Inevitable goal may)) :
    (p >>= f).Whenever after (Inevitable goal may) := by
  induction p with
  | ret a => exact hf a
  | call c k ih => exact fun r => ⟨fun hafter => ((hp r).1 hafter).bind, ih r (hp r).2⟩

/-! ## Programs that end with a call

`final c r` is the value that a program has to return right after `c` was answered `r`, if
that answer is to be the last. -/

/-- After an answer that is to be the last, the program returns the value given for it. -/
def Closes (final : (c : C) → R c → Option α) : Program C R α → Prop
  | .ret _ => True
  | .call c k => ∀ r,
    match final c r with
    | some a => k r = .ret a
    | none => (k r).Closes final

theorem Closes.bind {final : (c : C) → R c → Option β} {p : Program C R α}
    {f : α → Program C R β} (hp : p.All fun c => ∀ r, final c r = none)
    (hf : ∀ a, (f a).Closes final) : (p >>= f).Closes final := by
  induction p with
  | ret a => exact hf a
  | call c k ih =>
    intro r
    rw [hp.1 r]
    exact ih r (hp.2 r True.intro)

end Program

/-! ## The meaning of calls -/

/-- The effect of calls on a shared state, and what the surroundings may do to it. -/
structure System (C : Type) (R : C → Type) (σ : Type) where
  /-- `exec s c r s'`: in `s` the call `c` may be answered `r`, leaving `s'`. -/
  exec : σ → (c : C) → R c → σ → Prop
  /-- `env s s'`: between two calls the surroundings may turn `s` into `s'`. -/
  env : σ → σ → Prop

end EmbedNfs
