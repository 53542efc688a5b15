import QuantumGo.DroppedMessages

/-!
A hello that the KEM refuses stays in the responder's transcript. The next hello is
answered over both, so the flight it gets is not the one it would have got.
-/

namespace QuantumGo.LateRefusals

open Octets Symbolic Wire Kem Tunnel Flights SymbolicKem
open HonestRuns Agreement StreamAgreement
open DatagramHandshake DatagramTwins DroppedMessages
open KeySchedule hiding deriveHandshakeKeys

/-! A build whose KEM refuses one well-formed key. -/

@[irreducible] def weakKey : List Letter := List.replicate 1600 (lit 0)

theorem weakKey_length : weakKey.length = 1600 := by
  rw [weakKey, List.length_replicate]

def weakSuite : Suite Letter :=
  { registry.chkemV1 with
    encapsulate := fun pk role coins =>
      if pk.raw = weakKey then .error .encapsulationFailed
      else registry.chkemV1.encapsulate pk role coins
    ciphertext_size := by
      intro pk role coins ct secret made
      split at made
      · cases made
      · exact registry.chkemV1.ciphertext_size pk role coins ct secret made }

def weakEnv : Env Letter :=
  { env with registry := { registry with chkemV1 := weakSuite } }

theorem weakEnv_ideal : IdealEnv weakEnv := ⟨env_ideal.xof, env_ideal.digest, env_ideal.aead,
    env_ideal.hashNeverHello⟩

/-- No key pair that is generated has the weak key. -/
theorem symbols_ne_weakKey {head : List Nat} {args : List (List Letter)} :
    symbols head args 1600 ≠ weakKey := by
  intro same
  have first : Letter.term head args 0 ∈ symbols head args 1600 :=
    List.mem_map.mpr ⟨0, List.mem_range.mpr (by decide), rfl⟩
  rw [same, weakKey] at first
  cases (List.mem_replicate.mp first).2

theorem generated_raw {id : UInt16} {keySize ctSize : Nat}
    {keyBound : 0 < keySize ∧ keySize < 2 ^ 16} {ctBound : 0 < ctSize ∧ ctSize < 2 ^ 16}
    {coins : List Letter} {kp : KeyPair Letter}
    (made : (suite id keySize ctSize keyBound ctBound).generateKeyPair coins = .ok kp) :
    kp.publicRaw = symbols [3, id.toNat] [coins] keySize := by
  obtain rfl := Except.ok.inj made
  rfl

theorem chkemV1_correct : Correct registry.chkemV1 := suite_correct

theorem weakSuite_correct : Correct weakSuite where
  generates := chkemV1_correct.generates
  parses := chkemV1_correct.parses
  encapsulates := by
    intro coins kp made role coins'
    have strong : kp.publicKey.raw ≠ weakKey := by
      have generated : registry.chkemV1.generateKeyPair coins = .ok kp := made
      intro weak
      exact symbols_ne_weakKey ((generated_raw generated).symm.trans weak)
    obtain ⟨ct, secret, sent, rest⟩ := chkemV1_correct.encapsulates coins kp made role coins'
    exact ⟨ct, secret, (if_neg strong).trans sent, rest⟩

theorem weakEnv_correct : CorrectRegistry weakEnv := by
  intro id suite found
  unfold getSuite at found
  split at found
  · cases found
    exact weakSuite_correct
  · split at found
    · cases found
      exact suite_correct
    · cases found

def weakPair : KeyPair Letter := ⟨suiteCHKEMv1, weakKey, [], by rw [weakKey_length]; decide⟩

def weakSession (role : Role) : Option (Session Letter) :=
  (newSession weakSuite role [] []).toOption

def helloOf (i : Session Letter) : List Letter :=
  (createClientHello weakEnv steadyCoins (newDgramHandshake i).hs).1.toOption.getD []

/-- How much went into the verify data of the flight that ends a run. A symbolic ServerFinished
can be read without its key. -/
def verified (reactions : Except Fault (List (Reaction Letter))) : Option Nat := do
  let .term _ [_, _, text, _] _ ← (← (← (← reactions.toOption).getLast?).1.getLast?).body.getLast?
    | none
  let .term _ [input] _ ← text.getLast? | none
  return input.length

/-- A hello with the weak key is dropped, and the honest hello behind it is answered with
another flight than on a responder that never saw the first. -/
theorem refused_hello_leaves_trace : ∃ (session : Session Letter) (d d' : DgramHandshake Letter)
    (m : Inbound Letter), IdealEnv weakEnv ∧ CorrectRegistry weakEnv ∧ Configured session ∧
    Reachable weakEnv session d ∧ Dropped weakEnv d m d' ∧ ¬ Indistinguishable weakEnv d d' := by
  let i := (weakSession .initiator).get rfl
  let r := (weakSession .responder).get rfl
  let weak : Inbound Letter := ⟨steadyCoins, messageTypeClientHello,
    helloOf { i with localKeyPair := some weakPair }, by decide +kernel⟩
  let honest : Inbound Letter := ⟨steadyCoins, messageTypeClientHello, helloOf i, by decide +kernel⟩
  refine ⟨_, newDgramHandshake r, _, weak, weakEnv_ideal, weakEnv_correct,
    ⟨Nat.zero_le _, by rintro _ ⟨⟩⟩, .new, ⟨.inl ⟨by decide, rfl⟩, Prod.ext ?_ rfl, ?_⟩,
    fun alike => ?_⟩
  · decide +kernel
  · decide +kernel
  · have same := congrArg verified (alike [honest]).1
    revert same
    decide +kernel

end QuantumGo.LateRefusals
