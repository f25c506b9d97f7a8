import EmbedNfs.Effects.Calls
import EmbedNfs.Effects.Opens
import EmbedNfs.Server.Scripted

/-!
# The last writer

A CLOSE reports the last writer when the open it closes had write access and no active open of
the object has it any more. An object may be written to again after such a report while other
opens of it stay, and an OPEN_DOWNGRADE may give up the last write access without a report. So
what a report marks is the end of a period in which the object was open for writing.
-/

namespace EmbedNfs

/-- Whether the open has write access to the object. -/
def OpenFileState.writes (object : ServerObject) (opened : OpenFileState) : Bool :=
  opened.active ∧ opened.object = object ∧ opened.shareAccess &&& open4ShareAccessWrite ≠ 0

/-- Whether an active open of the object has write access. -/
def StateInner.written (inner : StateInner) (object : ServerObject) : Bool :=
  inner.openFiles.any fun _ opened => opened.writes object

/-- What a CLOSE of an open of the object has reported about the last writer. -/
def Server.reports {H : Type} (s : Server H) (object : ServerObject) :
    (c : Call H) → c.Ret → Option Bool
  | .guarded (.closeState stateid), .ok out =>
    if (s.state.inner.openFiles.get stateid.other).any fun opened => opened.object = object then
      some out.lastWriter
    else none
  | _, _ => none

namespace StateManager

variable {s s' : StateManager} {stateid : Stateid4} {out : CloseOutcome} {object : ServerObject}

theorem written_eq_true {inner : StateInner} :
    inner.written object = true ↔
      ∃ x opened, inner.openFiles.get x = some opened ∧ opened.writes object = true :=
  Table.any_eq_true

theorem closeState_lastWriter (h : s.closeState stateid = .ok (out, s')) :
    ∃ opened, s.inner.openFiles.get stateid.other = some opened ∧ opened.active = true ∧
      (out.lastWriter = true ↔ opened.writes opened.object = true ∧
        s'.inner.written opened.object = false) := by
  simp only [closeState, bind, Except.bind, pure, Except.pure, throw, throwThe,
    MonadExceptOf.throw] at h
  split at h
  · rename_i opened hget
    split at h
    · cases h
    split at h
    · cases h
    rename_i hactive
    have hactive : opened.active = true := by simpa using hactive
    split at h
    · cases h
    cases h
    refine ⟨opened, hget, hactive, ?_⟩
    simp [OpenFileState.writes, StateInner.written, hactive]
  · cases h

theorem closeState_written {opened : OpenFileState} (h : s.closeState stateid = .ok (out, s'))
    (hget : s.inner.openFiles.get stateid.other = some opened)
    (hwrites : opened.writes object = false) (hwritten : s.inner.written object = true) :
    s'.inner.written object = true := by
  obtain ⟨x, other, hx, hother⟩ := written_eq_true.mp hwritten
  refine written_eq_true.mpr ⟨x, other, ?_, hother⟩
  have hne : x ≠ stateid.other := by
    rintro rfl
    cases hget.symm.trans hx
    rw [hother] at hwrites
    cases hwrites
  rw [(closeState_ok h).2, Table.get_modify, if_neg hne, hx]

end StateManager

theorem StateManager.Drift.written {s s' : StateManager} (hd : s.Drift s')
    (object : ServerObject) (h : s.inner.written object = true) :
    s'.inner.written object = true := by
  obtain ⟨x, opened, hget, hwrites⟩ := StateManager.written_eq_true.mp h
  exact StateManager.written_eq_true.mpr ⟨x, opened, (hd.openFiles x).symm.trans hget, hwrites⟩

section

variable {H : Type} {object : ServerObject}

theorem closeState_reports (s : Server H) (stateid : Stateid4) {last : Bool}
    (hreports : s.reports object (.guarded (.closeState stateid))
      (s.state.runSection (.closeState stateid)).1 = some last) :
    last = true ↔ s.state.inner.written object = true ∧
      (s.state.runSection (.closeState stateid)).2.inner.written object = false := by
  revert hreports
  let P (r : Except NfsStat4 CloseOutcome) (s' : StateManager) : Prop :=
    s.reports object (.guarded (.closeState stateid)) r = some last →
      (last = true ↔ s.state.inner.written object = true ∧ s'.inner.written object = false)
  refine StateManager.commit_answers P nofun fun out s' hok hreports => ?_
  obtain ⟨opened, hget, hactive, hlast⟩ := StateManager.closeState_lastWriter hok
  rw [Server.reports, hget, Option.any_some] at hreports
  split at hreports
  · rename_i hobject
    cases hreports
    obtain rfl := of_decide_eq_true hobject
    rw [hlast]
    constructor
    · rintro ⟨hwrites, hnone⟩
      exact ⟨StateManager.written_eq_true.mpr ⟨_, opened, hget, hwrites⟩, hnone⟩
    · rintro ⟨hwritten, hnone⟩
      refine ⟨?_, hnone⟩
      by_contra hwrites
      have hkept := StateManager.closeState_written hok hget (Bool.eq_false_iff.mpr hwrites)
        hwritten
      rw [hnone] at hkept
      cases hkept
  · cases hreports

variable [DecidableEq H] {backend : Backend H}

/-- **What a report says.** A CLOSE of an open of the object reports the last writer exactly if
it is the step with which the object stops being open for writing. -/
theorem reports_iff {e : ServerEvent H}
    (hexec : (Server.system backend).exec e.before e.call e.answer e.after)
    {last : Bool} (hreports : e.before.reports object e.call e.answer = some last) :
    last = true ↔ e.before.state.inner.written object = true ∧
      e.after.state.inner.written object = false := by
  obtain ⟨t, before, call, answer, after⟩ := e
  cases call with
  | guarded q =>
    cases q with
    | closeState stateid =>
      obtain ⟨hanswer, hafter⟩ := Server.exec_guarded hexec
      dsimp only at *
      subst hanswer
      rw [hafter]
      exact closeState_reports before stateid hreports
    | _ => cases hreports
  | _ => cases hreports

theorem System.Run.written {α : Type} {c c' : Machine H α}
    {tr : Trace H}
    (hrun : (Server.system backend).Run c tr c')
    (hperiod : ∀ e ∈ tr, e.after.state.inner.written object = true)
    (hbegins : c.state.state.inner.written object = true) :
    c'.state.state.inner.written object = true :=
  hrun.invariant (I := fun s => s.state.inner.written object = true) hbegins
    (fun _ _ h hd => hd.state.written object h) fun e he _ _ => hperiod e he

end

/-- **Last-writer notification.** Let any requests run against a server, with their steps
interleaved in any order. A CLOSE of an open of an object reports the last writer exactly if some
active open of the object had write access before it and none has afterwards. So if the object is
open for writing at some point and stays so until a CLOSE of one of its opens ends it, then this
CLOSE reports the last writer, and no other CLOSE in between does. -/
theorem last_writer_notification {H α : Type} [DecidableEq H] {backend : Backend H}
    {boot : Boot} {threads : List (Request H α)} {tr tr' : Trace H}
    {c c' : Machine H α}
    (hrun : (Server.system backend).Run ⟨Server.new H boot, threads⟩ tr c)
    (hrun' : (Server.system backend).Run c tr' c') (object : ServerObject) :
    (∀ e ∈ tr ++ tr', ∀ last, e.before.reports object e.call e.answer = some last →
      (last = true ↔ e.before.state.inner.written object = true ∧
        e.after.state.inner.written object = false)) ∧
    ∀ period e, tr' = period ++ [e] → c.state.state.inner.written object = true →
      (∀ e' ∈ period, e'.after.state.inner.written object = true) →
      e.after.state.inner.written object = false →
      (e.before.reports object e.call e.answer).isSome = true →
      e.before.reports object e.call e.answer = some true ∧
        ∀ e' ∈ period, e'.before.reports object e'.call e'.answer ≠ some true := by
  have hall := hrun.trans hrun'
  refine ⟨fun e he last hreports => reports_iff (hall.exec he) hreports, ?_⟩
  rintro period e rfl hbegins hperiod hends hclose
  constructor
  · obtain ⟨ts, k, hearlier, -, hexec, -⟩ := hrun'.at_event
    obtain ⟨last, hlast⟩ := Option.isSome_iff_exists.mp hclose
    have hbefore := hearlier.written hperiod hbegins
    rw [hlast, (reports_iff hexec hlast).mpr ⟨hbefore, hends⟩]
  · intro e' he' hreports
    have hnone := ((reports_iff (hrun'.exec (List.mem_append_left _ he')) hreports).mp rfl).2
    rw [hperiod e' he'] at hnone
    cases hnone

/-! ## Two owners, and one that downgrades -/

namespace Scripted

def closeBy (clientid : Clientid4) (opened : StateidOther) :
    Request Unit (NfsResop4 × CompoundState) :=
  opBy (some clientid) (.close ⟨0, opened⟩)

/-- One client opens the object for writing and another for reading. The first closes its open;
then the second opens the object for writing as well, and closes its open. -/
def overlapping : List (Request Unit (NfsResop4 × CompoundState)) :=
  [openBy 1 2 0, openBy 2 1 0, closeBy 1 (.mint 1 1), openBy 2 2 0, closeBy 2 (.mint 2 2)]

/-- A client opens the object, gives up its write access, and closes its open. -/
def downgrading : List (Request Unit (NfsResop4 × CompoundState)) :=
  [openBy 1 3 0, opBy (some 1) (.openDowngrade ⟨⟨0, .mint 1 1⟩, 1, 0⟩), closeBy 1 (.mint 1 1)]

/-- Two clients introduce themselves and the object gets its filehandle; then the first of the
given requests opens the object. -/
def opened (reqs : List (Request Unit (NfsResop4 × CompoundState))) :
    Trace Unit ×
      Machine Unit (NfsResop4 × CompoundState) :=
  (Server.scripted Backend.single .someFile).play
    ⟨Server.new Unit .fixed, setUp.take 3 ++ reqs⟩
    ([0, 1] ++ List.replicate 12 2 ++ List.replicate 20 3)

/-- The next `n` requests. -/
def thereafter (reqs : List (Request Unit (NfsResop4 × CompoundState))) (n : Nat) :
    Trace Unit ×
      Machine Unit (NfsResop4 × CompoundState) :=
  (Server.scripted Backend.single .someFile).play (opened reqs).2
    ((List.range n).flatMap fun i => List.replicate 20 (4 + i))

theorem opened_run (reqs : List (Request Unit (NfsResop4 × CompoundState))) :
    (Server.system Backend.single).Run ⟨Server.new Unit .fixed, setUp.take 3 ++ reqs⟩
      (opened reqs).1 (opened reqs).2 :=
  System.Resolver.play_run _ _ _

theorem thereafter_run (reqs : List (Request Unit (NfsResop4 × CompoundState))) (n : Nat) :
    (Server.system Backend.single).Run (opened reqs).2 (thereafter reqs n).1
      (thereafter reqs n).2 :=
  System.Resolver.play_run _ _ _

/-- What the CLOSEs of the object have reported. -/
def reported (tr : Trace Unit) : List Bool :=
  tr.filterMap fun e => e.before.reports (.fs 1) e.call e.answer

/-- Whether some open of the object is active. -/
def isOpen (s : Server Unit) : Bool :=
  s.state.inner.openFiles.any fun _ opened => opened.active ∧ opened.object = .fs 1

end Scripted

open Scripted

/-- From the time an object is open for writing until all of its opens are closed, there may be
two reports, if it is opened for writing again; or none, if the write access is given up. -/
theorem last_writer_notification_miscounts :
    (∃ tr c tr' c', (Server.system Backend.single).Run
        ⟨Server.new Unit .fixed, setUp.take 3 ++ overlapping⟩ tr c ∧
      (Server.system Backend.single).Run c tr' c' ∧
      c.state.state.inner.written (.fs 1) = true ∧ (∀ e ∈ tr', isOpen e.before = true) ∧
      isOpen c'.state = false ∧ reported tr' = [true, true]) ∧
    ∃ tr c tr' c', (Server.system Backend.single).Run
        ⟨Server.new Unit .fixed, setUp.take 3 ++ downgrading⟩ tr c ∧
      (Server.system Backend.single).Run c tr' c' ∧
      c.state.state.inner.written (.fs 1) = true ∧ (∀ e ∈ tr', isOpen e.before = true) ∧
      isOpen c'.state = false ∧ reported tr' = [false] :=
  ⟨⟨_, _, _, _, opened_run overlapping, thereafter_run overlapping 4, by decide +kernel⟩,
    ⟨_, _, _, _, opened_run downgrading, thereafter_run downgrading 2, by decide +kernel⟩⟩

/-- The first CLOSE of the two clients reports the last writer. -/
theorem last_writer_notification_overlapping :
    ∃ tr c tr' e c', (Server.system Backend.single).Run
        ⟨Server.new Unit .fixed, setUp.take 3 ++ overlapping⟩ tr c ∧
      (Server.system Backend.single).Run c (tr' ++ [e]) c' ∧
      e.before.reports (.fs 1) e.call e.answer = some true := by
  let events := (thereafter overlapping 2).1
  have hne : events ≠ [] := by
    intro hnil
    have hlength : events.length ≠ 0 := by decide +kernel
    exact hlength (by rw [hnil]; rfl)
  have hrun := opened_run overlapping
  have hrun' : (Server.system Backend.single).Run (opened overlapping).2
      (events.dropLast ++ [events.getLast hne]) (thereafter overlapping 2).2 := by
    rw [List.dropLast_concat_getLast]
    exact thereafter_run overlapping 2
  have hends : (events.getLast?.all fun e => e.after.state.inner.written (.fs 1) = false ∧
      (e.before.reports (.fs 1) e.call e.answer).isSome = true) = true := by decide +kernel
  rw [List.getLast?_eq_getLast_of_ne_nil hne, Option.all_some] at hends
  obtain ⟨hafter, hclose⟩ := of_decide_eq_true hends
  have h := (last_writer_notification hrun hrun' (.fs 1)).2 _ _ rfl (by decide +kernel)
    (by decide +kernel) hafter hclose
  exact ⟨_, _, _, _, _, hrun, hrun', h.1⟩

end EmbedNfs
