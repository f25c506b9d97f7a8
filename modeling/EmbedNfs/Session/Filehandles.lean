import EmbedNfs.Proto.Xdr
import EmbedNfs.Session.Model

/-!
# Filehandle layouts

The two layouts of `session/filehandles.rs`. A boot-scoped filehandle is the boot's random
nonce followed by a counter; a persistent one is a tag followed by the backend's encoding.
A nonce never starts with the tag, so the layouts cannot be confused whatever their lengths.
-/

namespace EmbedNfs

/-- `MAX_PERSISTENT_HANDLE_LEN`. -/
def maxPersistentHandleLen : Nat := 127

/-- `persistent_fh_body`: the backend encoding, if the bytes have the persistent layout. -/
def persistentFhBody (fh : Bytes) : Option Bytes :=
  match fh with
  | [] => none
  | tag :: body =>
    if tag = persistentFhTag ∧ body ≠ [] ∧ body.length ≤ maxPersistentHandleLen then some body
    else none

/-- `fh_has_valid_format`. -/
def fhHasValidFormat (fh : Bytes) : Bool := fh.length = fhLen ∨ (persistentFhBody fh).isSome

namespace StateManager

/-- `record_persistent_fh`. -/
def recordPersistentFh (s : StateManager) (id : ObjectId) (encoded : Bytes) : StateManager :=
  { s with persistentFh := s.persistentFh.insert id (persistentFhTag :: encoded) }

/-- The boot-scoped filehandle for a counter value. -/
def bootFh (s : StateManager) (number : U64) : Bytes := s.fhBootNonce ++ be64 number

/-- `fh_to_object`: the shape and the nonce are checked before the table is consulted. -/
def resolveFh (s : StateManager) (fh : Bytes) : Option ServerObject :=
  if persistentFhBody fh = none ∧ (fh.length ≠ fhLen ∨ fh.take fhNonceLen ≠ s.fhBootNonce) then
    none
  else s.fhToObject.get fh

end StateManager

/-! ## Layout facts -/

theorem length_newFhBootNonce (random : Fin 8 → U8) :
    (newFhBootNonce random).length = fhNonceLen := by
  simp [newFhBootNonce, List.ofFn_succ, fhNonceLen]

theorem head_newFhBootNonce (random : Fin 8 → U8) :
    (newFhBootNonce random).head? ≠ some persistentFhTag := by
  have hflip : persistentFhTag ^^^ 1 ≠ persistentFhTag := by decide
  simp only [newFhBootNonce, List.ofFn_succ, List.head?_cons, ne_eq, Option.some.injEq]
  split
  · rename_i h
    rw [h]
    exact hflip
  · assumption

theorem head_of_persistentFhBody {fh body : Bytes} (h : persistentFhBody fh = some body) :
    fh = persistentFhTag :: body := by
  unfold persistentFhBody at h
  split at h
  · cases h
  · split at h
    · rename_i hcond
      cases h
      rw [hcond.1]
    · cases h

end EmbedNfs
