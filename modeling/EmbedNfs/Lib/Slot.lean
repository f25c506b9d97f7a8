import Mathlib.Data.List.Basic

/-!
# One slot, many threads

A slot that carries one request at a time. To use it, a thread takes a ticket, hands its request
over, and waits for the reply; the hand-over may fail. Each thread goes through these acts in this
order, but nothing keeps two threads from taking tickets at the same time. If a ticket is only
taken when every earlier one has had its reply, and no hand-over fails, then the slot is used in
turns.
-/

namespace EmbedNfs

theorem concat_eq_append_cons {X : Type} {xs a b : List X} {x y : X}
    (h : xs ++ [x] = a ++ y :: b) :
    (b = [] ∧ xs = a ∧ x = y) ∨ ∃ b', b = b' ++ [x] ∧ xs = a ++ y :: b' := by
  rcases List.eq_nil_or_concat b with rfl | ⟨b', z, rfl⟩
  · obtain ⟨rfl, hx⟩ := List.append_inj' h rfl
    exact Or.inl ⟨rfl, rfl, by simpa using hx⟩
  · right
    have h' : xs ++ [x] = (a ++ y :: b') ++ [z] := by simpa using h
    obtain ⟨rfl, hx⟩ := List.append_inj' h' rfl
    cases hx
    exact ⟨b', by simp, rfl⟩

namespace Slot

variable {τ : Type}

/-- What a thread does with a ticket. -/
inductive Act (τ : Type) where
  | reserve (x : τ)
  | handOver (x : τ)
  | fail (x : τ)
  | reply (x : τ)
  deriving DecidableEq, Repr

/-- What a thread is doing. -/
inductive Phase (τ : Type) where
  | idle
  | reserved (x : τ)
  | waiting (x : τ)
  deriving DecidableEq, Repr

namespace Act

def isReserve : Act τ → Bool
  | reserve _ => true
  | _ => false

def isFail : Act τ → Bool
  | fail _ => true
  | _ => false

def isReply : Act τ → Bool
  | reply _ => true
  | _ => false

/-- The ticket that the act is about. -/
def ticket : Act τ → τ
  | reserve x | handOver x | fail x | reply x => x

/-- The ticket that is taken. -/
def reserved? : Act τ → Option τ
  | reserve x => some x
  | _ => none

/-- The ticket whose request is handed over. -/
def handedOver? : Act τ → Option τ
  | handOver x => some x
  | _ => none

end Act

namespace Phase

/-- The phase after an act. -/
def next : Act τ → Phase τ
  | .reserve x => reserved x
  | .handOver x => waiting x
  | .fail _ | .reply _ => idle

/-- The acts that a thread may do in a phase. -/
def Allows (m : Phase τ) : Act τ → Prop
  | .reserve _ => m = idle
  | .handOver x | .fail x => m = reserved x
  | .reply x => m = waiting x

end Phase

/-- The acts of all threads, in the order in which they happened. -/
abbrev History (τ : Type) := List (Nat × Act τ)

namespace History

/-- What the thread is doing after the acts. -/
def phaseOf (t : Nat) (acts : History τ) : Phase τ :=
  acts.foldl (fun m a => if a.1 = t then Phase.next a.2 else m) .idle

/-- The tickets taken, in order. -/
def reserved (acts : History τ) : List τ := acts.filterMap fun a => a.2.reserved?

/-- The tickets whose requests were handed over, in order. -/
def handedOver (acts : History τ) : List τ := acts.filterMap fun a => a.2.handedOver?

/-- A ticket is taken only when as many replies have come as tickets were taken, and every
request can be handed over. -/
def OneAtATime (acts : History τ) : Prop :=
  (∀ i (h : i < acts.length), acts[i].2.isReserve = true →
    (acts.take i).countP (·.2.isReserve) = (acts.take i).countP (·.2.isReply)) ∧
  ∀ a ∈ acts, a.2.isFail = false

instance (acts : History τ) : Decidable acts.OneAtATime := by
  unfold OneAtATime
  infer_instance

theorem phaseOf_concat (t : Nat) (acts : History τ) (a : Nat × Act τ) :
    phaseOf t (acts ++ [a]) = if a.1 = t then Phase.next a.2 else phaseOf t acts := by
  simp [phaseOf]

theorem OneAtATime.of_concat {acts : History τ} {a : Nat × Act τ}
    (h : OneAtATime (acts ++ [a])) : acts.OneAtATime := by
  refine ⟨fun i hi hreserve => ?_, fun b hb => h.2 b (List.mem_append_left _ hb)⟩
  have hi' : i < (acts ++ [a]).length := by simp; omega
  have hcount := h.1 i hi' (by rw [List.getElem_append_left hi]; exact hreserve)
  rwa [List.take_append_of_le_length (Nat.le_of_lt hi)] at hcount

theorem OneAtATime.last {acts : History τ} {a : Nat × Act τ}
    (h : OneAtATime (acts ++ [a])) (hreserve : a.2.isReserve = true) :
    acts.countP (·.2.isReserve) = acts.countP (·.2.isReply) := by
  have hcount := h.1 acts.length (by simp) (by simpa using hreserve)
  rwa [List.take_left] at hcount

/-! ## In turns -/

/-- The acts are rounds of one thread each; the index says who is in the middle of one. -/
inductive InTurn : Option (Nat × Phase τ) → History τ → Prop where
  | nil : InTurn none []
  | reserve {acts : History τ} (t : Nat) (x : τ) (h : InTurn none acts) :
    InTurn (some (t, .reserved x)) (acts ++ [(t, .reserve x)])
  | handOver {acts : History τ} {t : Nat} {x : τ} (h : InTurn (some (t, .reserved x)) acts) :
    InTurn (some (t, .waiting x)) (acts ++ [(t, .handOver x)])
  | reply {acts : History τ} {t : Nat} {x : τ} (h : InTurn (some (t, .waiting x)) acts) :
    InTurn none (acts ++ [(t, .reply x)])

variable {acts : History τ} {turn : Option (Nat × Phase τ)}

/-- What the thread does while somebody has the turn. -/
def turnOf (t : Nat) : Option (Nat × Phase τ) → Phase τ
  | some (u, m) => if u = t then m else .idle
  | none => .idle

/-- Only the thread whose turn it is does something. -/
theorem InTurn.phaseOf (h : InTurn turn acts) (t : Nat) : acts.phaseOf t = turnOf t turn := by
  induction h with
  | nil => rfl
  | reserve u x _ ih | @handOver _ u x _ ih | @reply _ u x _ ih =>
    rw [phaseOf_concat, ih]
    by_cases hu : u = t <;> simp [hu, Phase.next, turnOf]

theorem InTurn.countP (h : InTurn turn acts) :
    acts.countP (·.2.isReserve) =
      acts.countP (·.2.isReply) + if turn.isSome then 1 else 0 := by
  induction h with
  | nil => rfl
  | reserve _ _ _ ih | handOver _ ih | reply _ ih =>
    rw [List.countP_append, List.countP_append, ih]
    simp [Act.isReserve, Act.isReply]

/-- The tickets taken are those handed over, and the one that is about to be. -/
theorem InTurn.reserved_eq (h : InTurn turn acts) :
    acts.reserved = acts.handedOver ++
      match turn with
      | some (_, .reserved x) => [x]
      | _ => [] := by
  induction h with
  | nil => rfl
  | reserve _ _ _ ih | handOver _ ih | reply _ ih =>
    simp only [reserved, handedOver, List.filterMap_append] at ih ⊢
    rw [ih]
    simp [Act.reserved?, Act.handedOver?]

/-- **Step lemma.** Where each thread does what its phase allows, turns are kept. -/
theorem InTurn.step (h : InTurn turn acts) {t : Nat} {a : Act τ}
    (hallows : (acts.phaseOf t).Allows a) (hone : OneAtATime (acts ++ [(t, a)])) :
    ∃ turn', InTurn turn' (acts ++ [(t, a)]) := by
  -- a thread that is not idle is the one whose turn it is
  have hturn : ∀ m, acts.phaseOf t = m → m ≠ .idle → turn = some (t, m) := by
    rintro m hm hidle
    rw [h.phaseOf t] at hm
    rcases turn with _ | ⟨u, m'⟩
    · exact absurd hm.symm hidle
    · by_cases hu : u = t
      · simpa [turnOf, hu] using hm
      · rw [turnOf, if_neg hu] at hm
        exact absurd hm.symm hidle
  cases a with
  | reserve x =>
    have hcount := hone.last rfl
    rw [h.countP] at hcount
    cases turn with
    | none => exact ⟨_, h.reserve t x⟩
    | some p => simp at hcount
  | handOver x =>
    have heq := hturn _ hallows (by simp)
    subst heq
    exact ⟨_, h.handOver⟩
  | fail x => exact absurd (hone.2 (t, .fail x) (by simp)) (by simp [Act.isFail])
  | reply x =>
    have heq := hturn _ hallows (by simp)
    subst heq
    exact ⟨_, h.reply⟩

/-! ## One request at a time -/

/-- Every request handed over has had its reply, but for the one that `turn` waits for. -/
def Replied (turn : Option (Nat × Phase τ)) (acts : History τ) : Prop :=
  ∀ pre u y post, acts = pre ++ (u, .handOver y) :: post →
    (u, .reply y) ∈ post ∨ turn = some (u, .waiting y)

theorem InTurn.replied (h : InTurn turn acts) : Replied turn acts := by
  induction h with
  | nil => exact fun pre u y post heq => by simp at heq
  | reserve t x h ih =>
    intro pre u y post heq
    rcases concat_eq_append_cons heq with ⟨-, -, hact⟩ | ⟨post', rfl, hold⟩
    · cases hact
    · rcases ih pre u y post' hold with hmem | hturn
      · exact Or.inl (List.mem_append_left _ hmem)
      · cases hturn
  | handOver h ih =>
    intro pre u y post heq
    rcases concat_eq_append_cons heq with ⟨-, -, hact⟩ | ⟨post', rfl, hold⟩
    · cases hact
      exact Or.inr rfl
    · rcases ih pre u y post' hold with hmem | hturn
      · exact Or.inl (List.mem_append_left _ hmem)
      · cases hturn
  | reply h ih =>
    intro pre u y post heq
    rcases concat_eq_append_cons heq with ⟨-, -, hact⟩ | ⟨post', rfl, hold⟩
    · cases hact
    · rcases ih pre u y post' hold with hmem | hturn
      · exact Or.inl (List.mem_append_left _ hmem)
      · cases hturn
        exact Or.inl (List.mem_append_right _ (List.mem_singleton.mpr rfl))

/-- When a request is handed over, all that were handed over before have had their replies. -/
theorem InTurn.spaced (h : InTurn turn acts) {pre post : History τ} {t : Nat} {x : τ}
    (hsplit : acts = pre ++ (t, .handOver x) :: post) {pre' post' : History τ} {u : Nat} {y : τ}
    (hpre : pre = pre' ++ (u, .handOver y) :: post') : (u, .reply y) ∈ post' := by
  induction h generalizing post with
  | nil => simp at hsplit
  | reserve _ _ _ ih | reply _ ih =>
    rcases concat_eq_append_cons hsplit with ⟨-, -, hact⟩ | ⟨_, -, hold⟩
    · cases hact
    · exact ih hold
  | handOver h ih =>
    rcases concat_eq_append_cons hsplit with ⟨-, rfl, -⟩ | ⟨_, -, hold⟩
    · rcases h.replied _ u y _ hpre with hmem | hturn
      · exact hmem
      · cases hturn
    · exact ih hold

end History

end Slot

end EmbedNfs
