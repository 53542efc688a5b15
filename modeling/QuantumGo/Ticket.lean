import QuantumGo.Aead
import Mathlib.Data.List.Nodup

/-!
Session tickets (pkg/tunnel/ticket.go). The manager keeps a key and its
predecessor; every EncryptTicket builds a cipher of its own from the current key.
Times are Unix seconds for a ticket and nanoseconds for the clock and the
lifetime.
-/

namespace QuantumGo.Ticket

open Octets Effect Symbolic Wire Aead

variable {Byte : Type} [Octet Byte] (crypto : Crypto Byte)

structure SessionTicket (Byte : Type) where
  version : UInt8
  cipherSuite : UInt16
  masterSecret : List Byte
  createdAt : Int
  deriving DecidableEq

/-- `NewTicketManager` and `RotateKey` let only keys of 32 bytes in. -/
structure TicketManager (Byte : Type) where
  currentKey : List Byte
  previousKey : Option (List Byte)
  lifetime : Int
  keySize : currentKey.length = 32

def newTicketManager (key : List Byte) (lifetime : Int) : Except Fault (TicketManager Byte) :=
  if size : key.length = 32 then
    .ok ⟨key, none, if lifetime = 0 then 24 * 3600 * 10 ^ 9 else lifetime, size⟩
  else .error (.err .invalidKeySize)

def rotateKey (newKey : List Byte) : Prog (TicketManager Byte) Fault Unit := fun tm =>
  if size : newKey.length = 32 then
    (.ok (), ⟨newKey, some tm.currentKey, tm.lifetime, size⟩)
  else (.error (.err .invalidKeySize), tm)

def copyInto (width : Nat) (field : List Byte) : List Byte :=
  field.take width ++ List.replicate (width - field.length) (lit 0)

def ticketPlaintext (ticket : SessionTicket Byte) : List Byte :=
  lit ticket.version :: (toBE 2 ticket.cipherSuite.toNat ++
    (copyInto 32 ticket.masterSecret ++ toBE 8 ticket.createdAt.toNat))

def encryptTicket (tm : TicketManager Byte)
    (ticket : SessionTicket Byte) : Except Fault (List Byte) :=
  if ticket.createdAt < 0 then .error (.err .invalidMessage)
  else do
    let aead ← newAEAD crypto cipherSuiteAES256GCM tm.currentKey
    (sealNext crypto (ticketPlaintext ticket) [] aead).1

def decryptWithKey (data key : List Byte) :
    Except Fault (List Byte) := do
  let aead ← newAEAD crypto cipherSuiteAES256GCM key
  openNext crypto aead data []

/-- `time.Since`, which saturates at the ends of a 64-bit duration. -/
def since (now createdAt : Int) : Int :=
  max (-2 ^ 63) (min (2 ^ 63 - 1) (now - createdAt * 10 ^ 9))

def parseTicket (plaintext : List Byte) : SessionTicket Byte where
  version := UInt8.ofNat (ofBE (slice plaintext 0 1))
  cipherSuite := UInt16.ofNat (ofBE (slice plaintext 1 3))
  masterSecret := slice plaintext 3 35
  createdAt := ofBE (slice plaintext 35 43)

def decryptTicket (tm : TicketManager Byte) (now : Int)
    (data : List Byte) : Except Fault (SessionTicket Byte) :=
  let current := decryptWithKey crypto data tm.currentKey
  let opened := match current, tm.previousKey with
    | .error _, some previousKey => decryptWithKey crypto data previousKey
    | _, _ => current
  match opened with
  | .error _ => .error (.err .invalidTicket)
  | .ok plaintext =>
    if plaintext.length ≠ 43 then .error (.err .invalidTicket)
    else if ofBE (slice plaintext 35 43) > 0x7FFFFFFFFFFFFFFF then .error (.err .invalidTicket)
    else
      let ticket := parseTicket plaintext
      if since now ticket.createdAt > tm.lifetime then .error (.err .expiredTicket)
      else if crypto.fips && !isFIPSApproved ticket.cipherSuite then
        .error (.err .cipherSuiteNotFIPSApproved)
      else .ok ticket

/-! Whole lives of a manager. -/

inductive Call (Byte : Type) where
  | encryptTicket (ticket : SessionTicket Byte)
  | rotateKey (newKey : List Byte)

abbrev KeyNonce (Byte : Type) := List Byte × List Byte

/-- The pair a call seals under: the key the cipher is built from and the nonce
that stands in front of the ciphertext. -/
def sealedUnder (tm : TicketManager Byte) (ticket : SessionTicket Byte) :
    Option (KeyNonce Byte) :=
  match encryptTicket crypto tm ticket with
  | .ok ciphertext => some (tm.currentKey, ciphertext.take aesNonceSize)
  | .error _ => none

def runCalls (crypto : Crypto Byte) : TicketManager Byte → List (Call Byte) → List (KeyNonce Byte)
  | _, [] => []
  | tm, .encryptTicket ticket :: rest =>
    (sealedUnder crypto tm ticket).toList ++ runCalls crypto tm rest
  | tm, .rotateKey newKey :: rest => runCalls crypto (rotateKey newKey tm).2 rest

/-- The current keys at the calls that get as far as sealing, read off the calls
alone: a ticket from before 1970 is refused, and so is a key of another length. -/
def sealingKeys : List Byte → List (Call Byte) → List (List Byte)
  | _, [] => []
  | key, .encryptTicket ticket :: rest =>
    if ticket.createdAt < 0 then sealingKeys key rest else key :: sealingKeys key rest
  | key, .rotateKey newKey :: rest =>
    if newKey.length = 32 then sealingKeys newKey rest else sealingKeys key rest

section Sealing
variable {crypto}

/-- Every sealing of a ticket starts a fresh counter, so its nonce is that of zero. -/
theorem encryptTicket_ok_iff {tm : TicketManager Byte} {ticket : SessionTicket Byte}
    {data : List Byte} : encryptTicket crypto tm ticket = .ok data ↔
      0 ≤ ticket.createdAt ∧ data = counterNonce 0 ++ crypto.sealText cipherSuiteAES256GCM
        tm.currentKey (counterNonce 0) (ticketPlaintext ticket) [] := by
  have fresh : newAEAD crypto cipherSuiteAES256GCM tm.currentKey =
      .ok ⟨cipherSuiteAES256GCM, tm.currentKey, 0, maxPacketsBeforeRekey⟩ :=
    newAEAD_ok_iff.mpr ⟨fun _ => rfl, tm.keySize, rfl, rfl⟩
  have room : 0 < maxPacketsBeforeRekey := by norm_num [maxPacketsBeforeRekey]
  have taken (late : 0 ≤ ticket.createdAt) : encryptTicket crypto tm ticket = .ok (counterNonce 0 ++
      crypto.sealText cipherSuiteAES256GCM tm.currentKey (counterNonce 0) (ticketPlaintext ticket)
        []) := by
    rw [encryptTicket, if_neg (not_lt.mpr late), fresh]
    exact congrArg Prod.fst (run_sealNext _ _ room)
  constructor
  · intro issued
    have late : 0 ≤ ticket.createdAt := not_lt.mp (guard_ok_iff.mp issued).1
    exact ⟨late, Except.ok.inj (issued.symm.trans (taken late))⟩
  · rintro ⟨late, rfl⟩
    exact taken late

end Sealing

theorem sealedUnder_eq (tm : TicketManager Byte) (ticket : SessionTicket Byte) :
    sealedUnder crypto tm ticket =
      if ticket.createdAt < 0 then none else some (tm.currentKey, counterNonce 0) := by
  by_cases early : ticket.createdAt < 0
  · simp [sealedUnder, encryptTicket, early]
  · have taken : encryptTicket crypto tm ticket = .ok _ :=
      encryptTicket_ok_iff.mpr ⟨not_lt.mp early, rfl⟩
    simp [sealedUnder, taken, early, List.take_left' (counterNonce_length 0)]

/-- The run's pairs are the sealing keys, each with the same nonce. -/
theorem runCalls_eq (tm : TicketManager Byte) (calls : List (Call Byte)) :
    runCalls crypto tm calls =
      (sealingKeys tm.currentKey calls).map (fun key => (key, counterNonce 0)) := by
  induction calls generalizing tm with
  | nil => rfl
  | cons call rest ih =>
    cases call with
    | encryptTicket ticket =>
      by_cases early : ticket.createdAt < 0
      · simp [runCalls, sealingKeys, sealedUnder_eq, early, ih]
      · simp [runCalls, sealingKeys, sealedUnder_eq, early, ih]
    | rotateKey newKey =>
      by_cases size : newKey.length = 32
      · simp [runCalls, sealingKeys, rotateKey, size, ih]
      · simp [runCalls, sealingKeys, rotateKey, size, ih]

/-- No pair repeats exactly when no key seals twice. -/
theorem runCalls_nodup_iff (crypto : Crypto Byte) (tm : TicketManager Byte)
    (calls : List (Call Byte)) :
    (runCalls crypto tm calls).Nodup ↔ (sealingKeys tm.currentKey calls).Nodup := by
  rw [runCalls_eq]
  apply List.nodup_map_iff
  intro left right same
  exact (Prod.mk.inj same).1

def rotations (calls : List (Call Byte)) : List (List Byte) :=
  calls.filterMap fun
    | .encryptTicket _ => none
    | .rotateKey newKey => some newKey

/-- Two tickets under one key already share a nonce; no rotation is needed. -/
theorem runCalls_repeats : ¬ ∀ (tm : TicketManager Letter) (calls : List (Call Letter)),
      (rotations calls).Nodup → (runCalls ⟨symbolic, false⟩ tm calls).Nodup := by
  intro unique
  let tm : TicketManager Letter := ⟨List.replicate 32 (lit 7), none, 1, rfl⟩
  let ticket (second : Int) : SessionTicket Letter := ⟨1, 1, [], second⟩
  have distinct := unique tm [.encryptTicket (ticket 0), .encryptTicket (ticket 1)] List.nodup_nil
  simp [runCalls_eq, sealingKeys, ticket] at distinct

end QuantumGo.Ticket
