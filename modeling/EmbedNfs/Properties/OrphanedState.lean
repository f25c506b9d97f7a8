import EmbedNfs.Effects.Holdings
import EmbedNfs.Server.Scripted

/-!
# State without a client

OPEN and LOCK make state for the client id in their arguments, and no section that makes state
looks whether that client exists. State made for a client with an active lease keeps it: an
open, a lock state or a delegation goes before the lease of its client does. State made for
anybody else stays for ever, since only the table of clients is searched for expired leases.
-/

namespace EmbedNfs

/-- Every active open, every active lock state and every delegation belongs to a client in the
table with an active lease. -/
structure StateInner.NoOrphans (inner : StateInner) : Prop where
  openFiles : ∀ x state, inner.openFiles.get x = some state → state.active = true →
    inner.Enrolled state.clientid
  lockFiles : ∀ x state, inner.lockFiles.get x = some state → state.active = true →
    inner.Enrolled state.owner.clientid
  delegations : ∀ x state, inner.delegations.get x = some state → inner.Enrolled state.clientid

/-- The client for which a call has made an open, a lock state or a delegation. -/
def Call.founds {H : Type} : (c : Call H) → c.Ret → Option Clientid4
  | .guarded q, r => q.founds r
  | _, _ => none

/-- Everything that is held, active or not, is held under an active lease. -/
structure StateInner.Founded (inner : StateInner) : Prop where
  indexed : inner.Indexed
  enrolled : ∀ l, inner.Holds l → inner.Enrolled l

namespace StateInner.Founded

theorem noOrphans {inner : StateInner} (h : inner.Founded) : inner.NoOrphans where
  openFiles x state hx _ := h.enrolled _ (.opened x state hx rfl)
  lockFiles x state hx _ := h.enrolled _ (.locked x state hx rfl)
  delegations x state hx := h.enrolled _ (.delegated x state hx rfl)

theorem new (boot : Boot) : (StateManager.new boot).inner.Founded where
  indexed := StateInner.indexed_new boot
  enrolled l hl := by
    rcases hl with ⟨_, _, hx, -⟩ | ⟨_, _, hx, -⟩ | ⟨_, _, hx, -⟩
    all_goals cases hx

theorem drift {s s' : StateManager} (h : s.inner.Founded) (hd : s.Drift s') :
    s'.inner.Founded where
  indexed := hd.indexed h.indexed
  enrolled l hl := by
    have hheld : s.inner.Holds l := by
      rcases hl with ⟨x, state, hx, hid⟩ | ⟨x, state, hx, hid⟩ | ⟨x, state, hx, hid⟩
      · exact .opened x state ((hd.openFiles x).trans hx) hid
      · exact .locked x state ((hd.lockFiles x).trans hx) hid
      · exact .delegated x state ((hd.delegations x).trans hx) hid
    obtain ⟨client, hget, hactive⟩ := h.enrolled l hheld
    exact ⟨client, (hd.clients l).symm.trans hget, hactive⟩

theorem runSection {s : StateManager} (h : s.inner.Founded) (c : Section)
    (hfounds : ∀ l, c.founds (s.runSection c).1 = some l → s.inner.Enrolled l) :
    (s.runSection c).2.inner.Founded where
  indexed := s.runSection_indexed c h.indexed
  enrolled l hl := by
    obtain ⟨hheld | hnew, hlease⟩ := s.runSection_holds c h.indexed hl
    · exact hlease (h.enrolled l hheld)
    · exact hlease (hfounds l hnew)

end StateInner.Founded

/-- **No orphaned state.** Let any requests run against a server, with their steps interleaved
in any order. If every open, lock state and delegation is made for a client that has an active
lease at that moment, then at any time every active open, every active lock state and every
delegation belongs to a client with an active lease. -/
theorem no_orphaned_state {H α : Type} [DecidableEq H] {backend : Backend H} {boot : Boot}
    {threads : List (Request H α)} {tr : Trace H}
    {c : Machine H α}
    (hrun : (Server.system backend).Run ⟨Server.new H boot, threads⟩ tr c)
    (hfounds : ∀ e ∈ tr, ∀ l, e.call.founds e.answer = some l →
      e.before.state.inner.Enrolled l) :
    c.state.state.inner.NoOrphans := by
  refine StateInner.Founded.noOrphans ?_
  refine hrun.invariant (I := fun s : Server H => s.state.inner.Founded) (.new boot)
    (fun s s' h hd => h.drift hd.state) fun e he hexec h => ?_
  have henrolled := hfounds e he
  rcases Server.exec_inner hexec with ⟨q, hq, hs⟩ | hs
  · obtain ⟨t, before, call, answer, after⟩ := e
    dsimp only at *
    subst hq
    rw [hs]
    refine h.runSection q fun l hl => henrolled l ?_
    rw [show answer = (before.state.runSection q).1 from hexec.1]
    exact hl
  · rw [hs]
    exact h

/-! ## A client that nobody has heard of, and one that is known -/

namespace Scripted

/-- OPEN by an owner of the client, denying everything, with the root as object. -/
def openFor (clientid : Clientid4) : Compound4Args :=
  ⟨0, [.putrootfh, .open ⟨1, 3, ⟨clientid, [1]⟩, .noCreate, .fh⟩]⟩

/-- The request of a client that has not introduced itself. -/
def strangerRun : Trace Unit ×
    Machine Unit (Option Bytes) :=
  (Server.scripted Backend.single .someFile).play
    ⟨Server.new Unit .fixed, requests config [openFor 7]⟩ (List.replicate 20 0)

/-- A client introduces itself first. -/
def knownCompounds : List Compound4Args :=
  [⟨0, [.setClientId ⟨⟨1, [1]⟩⟩]⟩, ⟨0, [.setClientIdConfirm ⟨1, 1⟩]⟩, openFor 1]

def knownRun : Trace Unit ×
    Machine Unit (Option Bytes) :=
  (Server.scripted Backend.single .someFile).play
    ⟨Server.new Unit .fixed, requests config knownCompounds⟩ ([0, 1] ++ List.replicate 20 2)

/-- Whether what the event makes is made for a client with an active lease. -/
def foundsEnrolled (e : ServerEvent Unit) : Bool :=
  (e.call.founds e.answer).all fun l =>
    (e.before.state.inner.clients.get l).any fun client => client.leaseState.isActive

theorem of_foundsEnrolled {e : ServerEvent Unit}
    (h : foundsEnrolled e = true) {l : Clientid4} (hl : e.call.founds e.answer = some l) :
    e.before.state.inner.Enrolled l := by
  rw [foundsEnrolled, hl, Option.all_some] at h
  exact (Option.any_eq_true _ _).mp h

end Scripted

open Scripted

/-- The open of a client that is not in the table is granted, and it denies everything. -/
theorem no_orphaned_state_stranger :
    ∃ tr c, (Server.system Backend.single).Run
        ⟨Server.new Unit .fixed, requests config [openFor 7]⟩ tr c ∧
      ∃ x state, c.state.state.inner.openFiles.get x = some state ∧ state.active = true ∧
        state.shareDeny = 3 ∧ state.clientid = 7 ∧
        c.state.state.inner.clients.get 7 = none ∧ ¬c.state.state.inner.NoOrphans := by
  let c := strangerRun.2
  have hrun : (Server.system Backend.single).Run _ strangerRun.1 c :=
    System.Resolver.play_run _ _ _
  have hopened : c.state.state.inner.openFiles.get (.mint 1 7) =
      some ⟨.fs 1, 7, [1], 1, true, 1, 3⟩ := by decide +kernel
  have hnone : c.state.state.inner.clients.get 7 = none := by decide +kernel
  refine ⟨_, c, hrun, .mint 1 7, _, hopened, rfl, rfl, rfl, hnone, fun h => ?_⟩
  obtain ⟨client, hget, -⟩ := h.openFiles _ _ hopened rfl
  rw [hnone] at hget
  cases hget

/-- The open of a client that has introduced itself belongs to a client with an active lease. -/
theorem no_orphaned_state_known :
    ∃ tr c, (Server.system Backend.single).Run
        ⟨Server.new Unit .fixed, requests config knownCompounds⟩ tr c ∧
      (∃ e ∈ tr, e.call.founds e.answer = some 1) ∧ c.state.state.inner.NoOrphans := by
  let tr := knownRun.1
  have hrun : (Server.system Backend.single).Run _ tr _ := System.Resolver.play_run _ _ _
  have hfounds : ∀ e ∈ tr, foundsEnrolled e = true := by decide +kernel
  refine ⟨tr, _, hrun, by decide +kernel, ?_⟩
  exact no_orphaned_state hrun fun e he l hl => of_foundsEnrolled (hfounds e he) hl

end EmbedNfs
