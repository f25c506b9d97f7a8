import EmbedNfs.Effects.Calls
import EmbedNfs.Lib.Counter

/-!
# The counter of stateids

Opens, locks and delegations take their stateids from one 32-bit counter. As long as it has not
come round, every number it has given out is different from the next one.
-/

namespace EmbedNfs

/-- The allocation number in a stateid's first four bytes. -/
def StateidOther.number (other : StateidOther) : U32 := other.extractLsb' 64 32

@[simp] theorem StateidOther.number_mint (seq : U32) (clientid : Clientid4) :
    number (mint seq clientid) = seq := by
  unfold number mint
  rw [BitVec.extractLsb'_append_eq_left]

/-- The counter stays where it is or takes one step. -/
def StateManager.Mints (s' s : StateManager) : Prop :=
  s'.nextStateid = s.nextStateid ∨ s'.nextStateid = s.nextStateid + 1

namespace StateManager

theorem Mints.refl (s : StateManager) : s.Mints s := Or.inl rfl

theorem exchangeId_mints (s : StateManager) (args : ExchangeIdArgs4) :
    (s.exchangeId args).2.Mints s := by
  unfold exchangeId
  split
  · exact .refl s
  · unfold exchangeIdReaped
    dsimp only
    split
    · exact Or.inl rfl
    · exact Or.inl rfl

theorem setClientIdReaped_mints (s : StateManager) (args : SetClientIdArgs4) :
    (s.setClientIdReaped args).2.Mints s := by
  unfold setClientIdReaped
  dsimp only
  split
  · exact Or.inl rfl
  · exact Or.inl rfl

theorem runSection_mints (s : StateManager) (c : Section) : (s.runSection c).2.Mints s := by
  have hrefl : s.Mints s := .refl s
  have hreap : s.reapExpiredClients.Mints s := Or.inl rfl
  cases hsessions : c.ofSessions with
  | true =>
    obtain ⟨t, _, _, rfl | rfl, hs⟩ := s.runSection_onlySessions c hsessions
    · rw [hs]
      exact hrefl
    · rw [hs]
      exact hreap
  | false =>
  cases hmeta : c.metadataOf with
  | some object =>
    obtain ⟨_, _, _, hs⟩ := s.runSection_onlyMetadata hmeta
    rw [hs]
    exact hrefl
  | none =>
  cases hopens : c.ofOpens with
  | true =>
    obtain ⟨_, _, hn, hs⟩ := s.runSection_onlyOpens c hopens
    rw [hs]
    exact hn
  | false =>
  cases hlocks : c.locks with
  | true =>
    obtain ⟨_, _, hn, hs⟩ := s.runSection_onlyLocks c hlocks
    rw [hs]
    exact hn
  | false =>
  cases hdelegations : c.ofDelegations with
  | true =>
    obtain ⟨_, _, -, hn, hs⟩ := s.runSection_onlyDelegations c hdelegations
    rw [hs]
    exact hn
  | false =>
  cases c with
  | exchangeId args => exact s.exchangeId_mints args
  | createSession args conn =>
    refine commit_keeps (·.Mints s) hreap fun a s' hok => ?_
    obtain ⟨client, inner, -, -, rfl, -, rfl⟩ := createSessionReaped_ok hok
    exact hreap
  | destroyClientid clientid =>
    refine commitUnit_keeps (·.Mints s) hreap fun s' hok => ?_
    rw [destroyClientidReaped_ok hok]
    exact hreap
  | setClientId args => exact s.reapExpiredClients.setClientIdReaped_mints args
  | freeStateid stateid =>
    refine commitUnit_keeps (·.Mints s) hrefl fun s' hok => ?_
    rcases freeStateid_ok hok with ⟨-, rfl⟩ | rfl | rfl
    · exact hrefl
    · exact hrefl
    · exact hrefl
  | revokeRecallableDelegation stateid =>
    refine commitUnit_keeps (·.Mints s) hrefl fun s' hok => ?_
    obtain ⟨state, -, rfl⟩ := revokeRecallableDelegation_ok hok
    exact hrefl
  | _ =>
    first
      | (cases hsessions; done)
      | (cases hmeta; done)
      | (cases hopens; done)
      | (cases hlocks; done)
      | (cases hdelegations; done)
      | exact hrefl

theorem runMapOp_nextStateid (s : StateManager) (c : MapOp) :
    (s.runMapOp c).2.nextStateid = s.nextStateid := by
  obtain ⟨_, _, _, _, _, _, h⟩ := s.runMapOp_only c
  rw [h]

end StateManager

section

variable {H : Type}

/-- The event has taken a stateid from the counter. -/
def takesStateid (e : ServerEvent H) : Bool :=
  e.after.state.nextStateid ≠ e.before.state.nextStateid

/-- How many stateids were issued in a trace. -/
def stateidsIssued (tr : Trace H) : Nat := tr.countP takesStateid

theorem stateidsIssued_concat (tr : Trace H) (e : ServerEvent H) :
    stateidsIssued (tr ++ [e]) = stateidsIssued tr + if takesStateid e then 1 else 0 := by
  simp [stateidsIssued, List.countP_append, List.countP_cons]

theorem stateidsIssued_le_concat (tr : Trace H) (e : ServerEvent H) :
    stateidsIssued tr ≤ stateidsIssued (tr ++ [e]) := by
  rw [stateidsIssued_concat]
  omega

variable [DecidableEq H] {backend : Backend H}

theorem Server.exec_mints {s s' : Server H} {c : Call H} {r : c.Ret}
    (h : (Server.system backend).exec s c r s') : s'.state.Mints s.state := by
  cases c with
  | guarded q =>
    rw [(Server.exec_guarded h).2]
    exact s.state.runSection_mints q
  | mapOp q =>
    rw [h.2]
    exact Or.inl (s.state.runMapOp_nextStateid q)
  | _ =>
    obtain ⟨persistentFh, hs⟩ := Server.exec_other h (by simp) (by simp)
    rw [hs]
    exact Or.inl rfl

variable {α : Type} {boot : Boot} {threads : List (Request H α)} {tr : Trace H}
  {c : Machine H α}

theorem System.Run.nextStateid_eq
    (hrun : (Server.system backend).Run ⟨Server.new H boot, threads⟩ tr c) :
    c.state.state.nextStateid = BitVec.ofNat 32 (1 + stateidsIssued tr) := by
  refine hrun.invariant_trace
    (I := fun tr s => s.state.nextStateid = BitVec.ofNat 32 (1 + stateidsIssued tr)) rfl ?_ ?_
  · intro tr s s' h hdrift
    rw [hdrift.state.nextStateid, h]
  · intro tr e hexec h
    rw [stateidsIssued_concat]
    rcases Server.exec_mints hexec with hsame | hnext
    · have hnot : takesStateid e = false := by simp [takesStateid, hsame]
      rw [hsame, h, hnot]
      rfl
    · have htakes : takesStateid e = true := by
        simp [takesStateid, hnext]
      rw [hnext, h, htakes, ofNat_succ]
      rfl

end

end EmbedNfs
