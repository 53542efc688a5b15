import QuantumGo.KeySchedule

/-!
Domain separation of the key derivations (pkg/crypto/kdf.go). A derivation absorbs a string and
reads its output from there, so two derivations that absorb different strings are independent.
DeriveKey and DeriveKeyMultiple frame what they absorb with 4-byte lengths; only the second
counts its inputs. The strings of one framing determine their label and inputs, and the labels
in use keep the two framings apart.
-/

namespace QuantumGo.KeySeparation

open Octets Effect Wire Aead KeySchedule

variable {Byte : Type} [Octet Byte]

/-! What the two functions absorb under any label. -/

def keyString (label input : List Byte) : List Byte := prefixed 4 label ++ prefixed 4 input

def multipleString (label : List Byte) (inputs : List (List Byte)) : List Byte :=
  prefixed 4 label ++ (toBE 4 inputs.length ++ inputs.flatMap (prefixed 4))

def absorbKey (label input : List Byte) (outputLen : Nat) : Except Fault (List Byte) :=
  if outputLen = 0 ∨ outputLen > maxOutputLen then .error (.err .invalidKeySize)
  else if label.length > maxUint32 then .error (.err .invalidKeySize)
  else if input.length > maxUint32 then .error (.err .invalidKeySize)
  else .ok (keyString label input)

def absorbMultiple (label : List Byte) (inputs : List (List Byte)) (outputLen : Nat) :
    Except Fault (List Byte) :=
  if outputLen = 0 ∨ outputLen > maxOutputLen then .error (.err .invalidKeySize)
  else if label.length > maxUint32 then .error (.err .invalidKeySize)
  else if inputs.length > maxUint32 then .error (.err .invalidKeySize)
  else if inputs.any (fun input => decide (input.length > maxUint32)) then
    .error (.err .invalidKeySize)
  else .ok (multipleString label inputs)

theorem label_short (domain : Domain) : ¬ (domain.bytes : List Byte).length > maxUint32 := by
  have short : (domain.bytes : List Byte).length < 256 ^ 4 := domain.bytes_length
  unfold maxUint32
  omega

theorem deriveKey_absorbs (crypto : Crypto Byte) (domain : Domain) (input : List Byte)
    (outputLen : Nat) : deriveKey crypto domain input outputLen =
      (absorbKey domain.bytes input outputLen).map (crypto.xof · outputLen) := by
  unfold deriveKey absorbKey
  rw [if_neg (label_short domain)]
  split
  · rfl
  · split <;> rfl

theorem deriveKeyMultiple_absorbs (crypto : Crypto Byte) (domain : Domain)
    (inputs : List (List Byte)) (outputLen : Nat) :
    deriveKeyMultiple crypto domain inputs outputLen =
      (absorbMultiple domain.bytes inputs outputLen).map (crypto.xof · outputLen) := by
  unfold deriveKeyMultiple absorbMultiple
  rw [if_neg (label_short domain)]
  split
  · rfl
  · split
    · rfl
    · split <;> rfl

variable {label : List Byte}

section Framing
variable {label' input input' : List Byte} {inputs inputs' : List (List Byte)}

theorem keyString_injective (short : label.length < 2 ^ 32) (short' : label'.length < 2 ^ 32)
    (fits : input.length < 2 ^ 32) (fits' : input'.length < 2 ^ 32)
    (same : keyString label input = keyString label' input') : label = label' ∧ input = input' := by
  obtain ⟨labels, inputs⟩ := prefixed_append_inj (by omega) (by omega) same
  rw [← List.append_nil (prefixed 4 input), ← List.append_nil (prefixed 4 input')] at inputs
  exact ⟨labels, (prefixed_append_inj (by omega) (by omega) inputs).1⟩

/-- Fields of which none is empty on the wire are read back without their number. -/
theorem fields_injective (fits : ∀ input ∈ inputs, input.length < 2 ^ 32)
    (fits' : ∀ input ∈ inputs', input.length < 2 ^ 32)
    (same : inputs.flatMap (prefixed 4) = inputs'.flatMap (prefixed 4)) : inputs = inputs' := by
  have occupied (field : List Byte) (rest : List Byte) : prefixed 4 field ++ rest ≠ [] := by
    intro empty
    have := congrArg List.length empty
    simp [prefixed] at this
  induction inputs generalizing inputs' with
  | nil =>
    cases inputs' with
    | nil => rfl
    | cons other others => exact absurd same.symm (occupied other _)
  | cons field rest ih =>
    cases inputs' with
    | nil => exact absurd same (occupied field _)
    | cons other others =>
      rw [List.flatMap_cons, List.flatMap_cons] at same
      obtain ⟨rfl, rests⟩ := prefixed_append_inj (by simpa using fits field List.mem_cons_self)
        (by simpa using fits' other List.mem_cons_self) same
      rw [ih (fun input member => fits input (List.mem_cons_of_mem _ member))
        (fun input member => fits' input (List.mem_cons_of_mem _ member)) rests]

theorem multipleString_injective (short : label.length < 2 ^ 32) (short' : label'.length < 2 ^ 32)
    (fits : ∀ input ∈ inputs, input.length < 2 ^ 32)
    (fits' : ∀ input ∈ inputs', input.length < 2 ^ 32)
    (same : multipleString label inputs = multipleString label' inputs') :
    label = label' ∧ inputs = inputs' := by
  obtain ⟨labels, rests⟩ := prefixed_append_inj (by omega) (by omega) same
  obtain ⟨-, fields⟩ := List.append_inj rests (by simp)
  exact ⟨labels, fields_injective fits fits' fields⟩

end Framing

/-! The derivations of the program. -/

inductive Derivation (Byte : Type) where
  | chkem (x25519Secret mlkemSecret transcriptHash : List Byte)
  | handshake (masterSecret : List Byte)
  | traffic (masterSecret : List Byte)
  | datagramNonce (masterSecret : List Byte)
  | streamNonce (masterSecret : List Byte)
  | resumption (ticketSecret freshSecret : List Byte)
  | rekey (currentSecret additionalData : List Byte)
  | authentication (ephemeralSecret staticSecret : List Byte)
  | psk (masterSecret key : List Byte)
  | clientFinished (sharedSecret transcript : List Byte)
  | serverFinished (sharedSecret transcript : List Byte)
  deriving DecidableEq

def Derivation.run (crypto : Crypto Byte) : Derivation Byte → Except Fault (List (List Byte))
  | .chkem x25519Secret mlkemSecret transcriptHash =>
    (deriveCHKEMSecret crypto x25519Secret mlkemSecret transcriptHash).map ([·])
  | .handshake masterSecret =>
    (deriveHandshakeKeys crypto masterSecret).map fun keys => [keys.1, keys.2]
  | .traffic masterSecret =>
    (deriveTrafficKeys crypto masterSecret).map fun keys => [keys.1, keys.2]
  | .datagramNonce masterSecret =>
    (deriveDatagramNoncePrefixes crypto masterSecret).map fun prefixes => [prefixes.1, prefixes.2]
  | .streamNonce masterSecret =>
    (deriveStreamNoncePrefixes crypto masterSecret).map fun prefixes => [prefixes.1, prefixes.2]
  | .resumption ticketSecret freshSecret =>
    (deriveResumptionSecret crypto ticketSecret freshSecret).map ([·])
  | .rekey currentSecret additionalData =>
    (deriveRekeySecret crypto currentSecret additionalData).map ([·])
  | .authentication ephemeralSecret staticSecret =>
    (deriveAuthenticatedSecret crypto ephemeralSecret staticSecret).map ([·])
  | .psk masterSecret key => (derivePSKSecret crypto masterSecret key).map ([·])
  | .clientFinished sharedSecret transcript =>
    (verifyData crypto .clientFinished sharedSecret transcript).map ([·])
  | .serverFinished sharedSecret transcript =>
    (verifyData crypto .serverFinished sharedSecret transcript).map ([·])

section Strings
omit [Octet Byte]

def Derivation.domain : Derivation Byte → Domain
  | .chkem .. => .chkem
  | .handshake _ => .handshake
  | .traffic _ => .traffic
  | .datagramNonce _ => .datagramNonce
  | .streamNonce _ => .streamNonce
  | .resumption .. => .resumption
  | .rekey .. => .rekey
  | .authentication .. => .authentication
  | .psk .. => .psk
  | .clientFinished .. => .clientFinished
  | .serverFinished .. => .serverFinished

def Derivation.inputs : Derivation Byte → List (List Byte)
  | .chkem x25519Secret mlkemSecret transcriptHash => [x25519Secret, mlkemSecret, transcriptHash]
  | .handshake secret | .traffic secret | .datagramNonce secret | .streamNonce secret => [secret]
  | .resumption first second | .rekey first second | .authentication first second
  | .psk first second | .clientFinished first second | .serverFinished first second =>
    [first, second]

def Derivation.sizes : Derivation Byte → List (List Byte × Nat)
  | .chkem x25519Secret mlkemSecret transcriptHash =>
    [(x25519Secret, x25519SharedSecretSize), (mlkemSecret, mlkemSharedSecretSize),
      (transcriptHash, transcriptHashSize)]
  | .handshake secret | .traffic secret | .datagramNonce secret | .streamNonce secret =>
    [(secret, sharedSecretSize)]
  | .resumption first second | .authentication first second | .psk first second =>
    [(first, sharedSecretSize), (second, sharedSecretSize)]
  | .rekey currentSecret _ => [(currentSecret, sharedSecretSize)]
  | .clientFinished .. | .serverFinished .. => []

def Derivation.outputLen : Derivation Byte → Nat
  | .handshake _ => 2 * aesKeySize + 2 * aesNonceSize
  | .traffic _ => 2 * aesKeySize
  | .datagramNonce _ | .streamNonce _ => 2 * noncePrefixSize
  | _ => sharedSecretSize

end Strings

/-- What the derivation absorbs, if it gets that far: DeriveKey is used for the derivations of
one input. -/
def Derivation.absorbs (d : Derivation Byte) : Except Fault (List Byte) :=
  if d.sizes.any (fun sized => decide (sized.1.length ≠ sized.2)) then .error (.err .invalidKeySize)
  else match d.inputs with
    | [input] => absorbKey d.domain.bytes input d.outputLen
    | inputs => absorbMultiple d.domain.bytes inputs d.outputLen

/-- A derivation reads its outputs from what it absorbs and from nothing else. -/
theorem Derivation.run_reads (d : Derivation Byte) : ∃ read : List Byte → List (List Byte),
    ∀ crypto : Crypto Byte, d.run crypto =
      d.absorbs.map fun string => read (crypto.xof string d.outputLen) := by
  have stopped {α β : Type} (stop : Fault) (f : α → β) :
      (Except.error stop : Except Fault α).map f = .error stop := rfl
  have mapped {α β γ : Type} (outcome : Except Fault α) (f : α → β) (g : β → γ) :
      (outcome.map f).map g = outcome.map fun value => g (f value) := by cases outcome <;> rfl
  have bound {α β γ : Type} (outcome : Except Fault α) (f : α → β) (g : β → γ) :
      (outcome.map f >>= fun value => pure (g value)) = outcome.map fun value => g (f value) := by
    cases outcome <;> rfl
  have failed {α β : Type} (stop : Fault) (f : α → Except Fault β) :
      (Except.error stop >>= f) = .error stop := rfl
  -- By cases on the sizes that are checked; no input of a Finished is.
  cases d with
  | chkem x25519Secret mlkemSecret transcriptHash =>
    refine ⟨([·]), fun crypto => ?_⟩
    by_cases size : x25519Secret.length = x25519SharedSecretSize <;>
      by_cases size' : mlkemSecret.length = mlkemSharedSecretSize <;>
      by_cases size'' : transcriptHash.length = transcriptHashSize <;>
      simp [run, deriveCHKEMSecret, absorbs, sizes, inputs, domain, outputLen, size, size', size'',
        deriveKeyMultiple_absorbs, mapped, stopped]
  | handshake secret | traffic secret =>
    refine ⟨fun material => [slice material 0 32, slice material 32 64], fun crypto => ?_⟩
    by_cases size : secret.length = sharedSecretSize <;>
      simp [run, deriveHandshakeKeys, deriveTrafficKeys, deriveFromMaster, absorbs, sizes, inputs,
        domain, outputLen, size, deriveKey_absorbs, bound, failed, mapped, stopped]
  | datagramNonce secret | streamNonce secret =>
    refine ⟨fun material => [material.take noncePrefixSize, material.drop noncePrefixSize],
      fun crypto => ?_⟩
    by_cases size : secret.length = sharedSecretSize <;>
      simp [run, deriveDatagramNoncePrefixes, deriveStreamNoncePrefixes, deriveNoncePrefixes,
        deriveFromMaster, absorbs, sizes, inputs, domain, outputLen, size, deriveKey_absorbs, bound,
        failed, mapped, stopped]
  | resumption first second | authentication first second | psk first second =>
    refine ⟨([·]), fun crypto => ?_⟩
    by_cases size : first.length = sharedSecretSize <;>
      by_cases size' : second.length = sharedSecretSize <;>
      simp [run, deriveResumptionSecret, deriveAuthenticatedSecret, derivePSKSecret, foldSecrets,
        absorbs, sizes, inputs, domain, outputLen, size, size', deriveKeyMultiple_absorbs, mapped,
        stopped]
  | rekey currentSecret additionalData =>
    refine ⟨([·]), fun crypto => ?_⟩
    by_cases size : currentSecret.length = sharedSecretSize <;>
      simp [run, deriveRekeySecret, absorbs, sizes, inputs, domain, outputLen, size,
        deriveKeyMultiple_absorbs, mapped, stopped]
  | clientFinished sharedSecret transcript | serverFinished sharedSecret transcript =>
    refine ⟨([·]), fun crypto => ?_⟩
    simp [run, verifyData, absorbs, sizes, inputs, domain, outputLen, deriveKeyMultiple_absorbs,
      mapped, sharedSecretSize]

variable {d d' : Derivation Byte} {string : List Byte}

omit [Octet Byte] in
theorem Derivation.eq_of_inputs (domain : d.domain = d'.domain) (inputs : d.inputs = d'.inputs) :
    d = d' := by
  cases d <;> cases d' <;> first | (cases domain; done) | (cases inputs; rfl)

theorem absorbKey_ok {input : List Byte} {outputLen : Nat}
    (absorbed : absorbKey label input outputLen = .ok string) :
    input.length < 2 ^ 32 ∧ string = keyString label input := by
  unfold absorbKey at absorbed
  rw [guard_ok_iff, guard_ok_iff, guard_ok_iff] at absorbed
  obtain ⟨-, -, fits, same⟩ := absorbed
  unfold maxUint32 at fits
  exact ⟨by omega, (Except.ok.inj same).symm⟩

theorem absorbMultiple_ok {inputs : List (List Byte)} {outputLen : Nat}
    (absorbed : absorbMultiple label inputs outputLen = .ok string) :
    (∀ input ∈ inputs, input.length < 2 ^ 32) ∧ string = multipleString label inputs := by
  unfold absorbMultiple at absorbed
  rw [guard_ok_iff, guard_ok_iff, guard_ok_iff, guard_ok_iff] at absorbed
  obtain ⟨-, -, -, fits, same⟩ := absorbed
  refine ⟨fun input member => ?_, (Except.ok.inj same).symm⟩
  simp only [List.any_eq_true, decide_eq_true_eq, not_exists, not_and] at fits
  have small := fits input member
  unfold maxUint32 at small
  omega

/-- What was absorbed is framed under the derivation's label, and its inputs fit. -/
theorem Derivation.absorbs_ok
    (absorbed : d.absorbs = .ok string) : (∀ input ∈ d.inputs, input.length < 2 ^ 32) ∧
      ((∃ input, d.inputs = [input] ∧ string = keyString d.domain.bytes input) ∨
        d.inputs.length ≠ 1 ∧ string = multipleString d.domain.bytes d.inputs) := by
  unfold absorbs at absorbed
  rw [guard_ok_iff] at absorbed
  replace absorbed := absorbed.2
  split at absorbed
  · rename_i input single
    obtain ⟨fits, same⟩ := absorbKey_ok absorbed
    rw [single]
    exact ⟨by simpa using fits, .inl ⟨input, rfl, same⟩⟩
  · rename_i several
    obtain ⟨fits, same⟩ := absorbMultiple_ok absorbed
    refine ⟨fits, .inr ⟨fun one => ?_, same⟩⟩
    obtain ⟨input, single⟩ := List.length_eq_one_iff.mp one
    exact several input single

omit [Octet Byte] in
/-- The label says how many inputs there are. -/
theorem Derivation.inputs_length (domain : d.domain = d'.domain) :
    d.inputs.length = d'.inputs.length := by
  cases d <;> cases d' <;> first | (cases domain; done) | rfl

theorem Derivation.absorbs_injective (absorbed : d.absorbs = .ok string)
    (absorbed' : d'.absorbs = .ok string) : d = d' := by
  have short : (d.domain.bytes : List Byte).length < 256 ^ 4 := d.domain.bytes_length
  have short' : (d'.domain.bytes : List Byte).length < 256 ^ 4 := d'.domain.bytes_length
  obtain ⟨fits, framed⟩ := absorbs_ok absorbed
  obtain ⟨fits', framed'⟩ := absorbs_ok absorbed'
  -- both framings begin with the label, so the labels agree
  have labels : (d.domain.bytes : List Byte) = d'.domain.bytes := by
    rcases framed with ⟨input, -, rfl⟩ | ⟨-, rfl⟩ <;>
      rcases framed' with ⟨input', -, same⟩ | ⟨-, same⟩ <;>
      exact (prefixed_append_inj short short' same).1
  have domain := Domain.bytes_injective labels
  have count := inputs_length domain
  refine eq_of_inputs domain ?_
  rcases framed with ⟨input, single, rfl⟩ | ⟨several, rfl⟩
  · rcases framed' with ⟨input', single', same⟩ | ⟨several', -⟩
    · rw [single] at fits ⊢
      rw [single'] at fits' ⊢
      rw [(keyString_injective short short' (fits input (List.mem_singleton_self _))
        (fits' input' (List.mem_singleton_self _)) same).2]
    · exact absurd (count ▸ congrArg List.length single) several'
  · rcases framed' with ⟨input', single', -⟩ | ⟨-, same⟩
    · exact absurd (count.trans (congrArg List.length single')) several
    · exact (multipleString_injective short short' fits fits' same).2

/-- The string that DeriveKey absorbs determines its label and input, that of DeriveKeyMultiple
its label and inputs, and the string that a derivation of the program absorbs determines the
derivation and its inputs. -/
theorem derivations_separated :
    (∀ label label' input input' : List Byte, label.length < 2 ^ 32 → label'.length < 2 ^ 32 →
      input.length < 2 ^ 32 → input'.length < 2 ^ 32 →
      keyString label input = keyString label' input' → label = label' ∧ input = input') ∧
    (∀ (label label' : List Byte) (inputs inputs' : List (List Byte)), label.length < 2 ^ 32 →
      label'.length < 2 ^ 32 → (∀ input ∈ inputs, input.length < 2 ^ 32) →
      (∀ input ∈ inputs', input.length < 2 ^ 32) →
      multipleString label inputs = multipleString label' inputs' →
      label = label' ∧ inputs = inputs') ∧
    ∀ (d d' : Derivation Byte) (string : List Byte), d.absorbs = .ok string →
      d'.absorbs = .ok string → d = d' := by
  refine ⟨fun label label' input input' short short' fits fits' => ?_,
    fun label label' inputs inputs' short short' fits fits' => ?_,
    fun d d' string absorbed absorbed' => ?_⟩
  · exact keyString_injective short short' fits fits'
  · exact multipleString_injective short short' fits fits'
  · exact Derivation.absorbs_injective absorbed absorbed'

/-- The handshake and the traffic keys of one master secret. -/
theorem derivations_separated_traffic : ∃ string string' : List UInt8,
    (Derivation.handshake (List.replicate 32 5)).absorbs = .ok string ∧
    (Derivation.traffic (List.replicate 32 5)).absorbs = .ok string' ∧ string ≠ string' := by
  refine ⟨_, _, rfl, rfl, fun same => ?_⟩
  have equal := derivations_separated.2.2 (Derivation.handshake (List.replicate 32 (5 : UInt8)))
    (Derivation.traffic (List.replicate 32 5)) _ rfl (congrArg Except.ok same.symm)
  cases equal

end QuantumGo.KeySeparation
