import QuantumGo.HelloCodec

/-!
Decoding inverts encoding for every handshake message that its own `Validate`
lets out. The cursor argument is the same throughout: at an offset stands a field
and behind it the rest, so the read yields the field and leaves the rest.
-/

namespace QuantumGo.HelloRoundTrip

open Octets Effect Wire HelloCodec

variable {Byte : Type} [Octet Byte] {data rest field : List Byte}

section Cursor
variable {offset : Nat}

omit [Octet Byte] in
theorem bytesAt_here (nonempty : field ≠ []) (here : data.drop offset = field ++ rest) :
    Yields (bytesAt data offset (offset + field.length)) field := by
  have size := length_at nonempty here
  have read := bytesAt_yields (show offset ≤ offset + field.length by omega)
    (show offset + field.length ≤ data.length by omega)
  rwa [slice_at here rfl] at read

theorem byteAt_here {b : UInt8} (here : data.drop offset = lit b :: rest) :
    Yields (byteAt data offset) b := by
  have read : Yields (bytesAt data offset (offset + 1)) [lit b] :=
    bytesAt_here (List.cons_ne_nil (lit b) []) here
  have value : UInt8.ofNat (ofBE [(lit b : Byte)]) = b := by simp [ofBE]
  rw [← value]
  exact .bind read (.pure _)

theorem encodeUint16_ne_nil (value : UInt16) : (encodeUint16 value : List Byte) ≠ [] := by
  simp [encodeUint16, toBE]

theorem ofBE_encodeUint16 (value : UInt16) :
    UInt16.ofNat (ofBE (encodeUint16 value : List Byte)) = value := by
  have fits : value.toNat < 256 ^ 2 := value.toNat_lt
  rw [encodeUint16, ofBE_toBE_of_lt fits, UInt16.ofNat_toNat]

theorem uint16At_here {value : UInt16} (here : data.drop offset = encodeUint16 value ++ rest) :
    Yields (uint16At data offset) value := by
  have read := bytesAt_here (encodeUint16_ne_nil value) here
  have width : (encodeUint16 value : List Byte).length = 2 := by simp [encodeUint16]
  rw [width] at read
  have decoded : Yields (uint16At data offset)
      (UInt16.ofNat (ofBE (encodeUint16 value : List Byte))) :=
    .bind read (.pure _)
  rwa [ofBE_encodeUint16] at decoded

theorem uint16sAt_here {values : List UInt16}
    (here : data.drop offset = values.flatMap encodeUint16 ++ rest) :
    Yields (uint16sAt data offset values.length) values := by
  induction values generalizing offset with
  | nil => exact .pure []
  | cons first others ih =>
    rw [List.flatMap_cons, List.append_assoc] at here
    have width : (encodeUint16 first : List Byte).length = 2 := by simp [encodeUint16]
    apply Yields.bind (uint16At_here here)
    exact .bind (ih (drop_at here width)) (.pure _)

theorem readLenPrefixed_here {payloadEnd : Nat} (nonempty : field ≠ [])
    (fits : field.length < 2 ^ 16) (here : data.drop offset = prefixed 2 field ++ rest)
    (room : offset + 2 + field.length ≤ payloadEnd) :
    Yields (readLenPrefixed data offset payloadEnd) (field, offset + 2 + field.length) := by
  rw [prefixed, List.append_assoc] at here
  have behind := drop_at here (toBE_length 2 field.length)
  have size : (UInt16.ofNat field.length).toNat = field.length := by
    rw [UInt16.toNat_ofNat']
    exact Nat.mod_eq_of_lt fits
  have head : data.drop offset = encodeUint16 (UInt16.ofNat field.length) ++ (field ++ rest) := by
    rw [here, encodeUint16, size]
  apply Yields.bind (.reject (by omega))
  apply Yields.bind (uint16At_here head)
  apply Yields.bind (.reject (by rw [size]; omega))
  rw [size]
  exact .bind (bytesAt_here nonempty behind) (.pure _)

end Cursor

/-! Frames. -/

def Exact (data : List Byte) : Prop :=
  headerSize ≤ data.length ∧ data.length = headerSize + payloadLen data

theorem payloadLen_take (data : List Byte) :
    payloadLen (data.take headerSize) = payloadLen data := by
  simp [payloadLen, slice, headerSize, List.drop_take, List.take_take]

section Frame
variable {messageType : UInt8} {payload : List Byte} (fits : payload.length < 2 ^ 32)

theorem frame_drop (messageType : UInt8) (payload : List Byte) :
    (frame messageType payload).drop headerSize = payload := by
  simp [frame, headerSize, List.drop_left']

@[simp] theorem frame_length (messageType : UInt8) (payload : List Byte) :
    (frame messageType payload).length = headerSize + payload.length := by
  simp [frame, headerSize]
  omega

include fits in
theorem frame_payloadLen : payloadLen (frame messageType payload) = payload.length := by
  have digits : slice (frame messageType payload) 1 5 = toBE 4 payload.length := by
    simp [slice, frame]
  rw [payloadLen, digits, ofBE_toBE_of_lt fits]

include fits in
theorem frame_exact : Exact (frame messageType payload) := by
  refine ⟨by simp, ?_⟩
  rw [frame_payloadLen fits, frame_length]

include fits in
theorem frame_wellFramed {minPayloadLen : Nat} (enough : minPayloadLen ≤ payload.length) :
    WellFramed messageType minPayloadLen (frame messageType payload) := by
  have kind : UInt8.ofNat (ofBE (slice (frame messageType payload) 0 1)) = messageType := by
    simp [slice, frame, ofBE]
  refine ⟨by simp, kind, ?_, ?_⟩
  · rw [frame_payloadLen fits, frame_length]
  · rwa [frame_payloadLen fits]

end Frame

theorem readHelloFields_here {version : Version} {random sessionID : List Byte}
    (long : random.length = 32) (short : sessionID.length ≤ 255)
    (here : data.drop headerSize = helloFields version random sessionID ++ rest) :
    Yields (readHelloFields data)
      (version, random, sessionID, headerSize + 2 + 32 + 1 + sessionID.length) := by
  have major : data.drop headerSize = [lit version.major] ++ (lit version.minor ::
      (random ++ (lit (UInt8.ofNat sessionID.length) :: (sessionID ++ rest)))) := by
    simpa [helloFields, prefixed, toBE] using here
  have minor : data.drop (headerSize + 1) = [lit version.minor] ++ (random ++
      (lit (UInt8.ofNat sessionID.length) :: (sessionID ++ rest))) := drop_at major rfl
  have randoms : data.drop (headerSize + 1 + 1) = random ++
      ([lit (UInt8.ofNat sessionID.length)] ++ (sessionID ++ rest)) := drop_at minor rfl
  change data.drop (headerSize + 2) = _ at randoms
  have lengthByte : data.drop (headerSize + 2 + 32) =
      [lit (UInt8.ofNat sessionID.length)] ++ (sessionID ++ rest) := drop_at randoms long
  have sessionIDs : data.drop (headerSize + 2 + 32 + 1) = sessionID ++ rest :=
    drop_at lengthByte rfl
  have value : (UInt8.ofNat sessionID.length).toNat = sessionID.length := by
    rw [UInt8.toNat_ofNat']
    exact Nat.mod_eq_of_lt (by omega)
  have nonempty : random ≠ [] := by
    rintro rfl
    simp at long
  apply Yields.bind (byteAt_here major)
  apply Yields.bind (byteAt_here minor)
  have random32 := bytesAt_here nonempty randoms
  rw [long] at random32
  apply Yields.bind random32
  apply Yields.bind (byteAt_here lengthByte)
  rw [value]
  by_cases present : sessionID.length > 0
  · rw [if_pos present]
    exact .bind (bytesAt_here (List.length_pos_iff.mp present) sessionIDs) (.pure _)
  · have empty : sessionID = [] := List.length_eq_zero_iff.mp (by omega)
    subst empty
    rw [if_neg present]
    exact .pure _

theorem helloFields_length {version : Version} {random sessionID : List Byte}
    (long : random.length = 32) :
    (helloFields version random sessionID).length = 2 + 32 + 1 + sessionID.length := by
  simp [helloFields, prefixed, long]
  omega

theorem fst_of_yields {α : Type} {reader : Reader α} {value : α} (read : Yields reader value) :
    (reader []).1 = .ok value := by
  obtain ⟨log, run⟩ := read []
  rw [run]

variable {m : ServerHello Byte}

theorem serverHelloPayload_length (long : m.random.length = 32) : (serverHelloPayload m).length =
      2 + 32 + 1 + m.sessionID.length + (2 + (2 + m.chkemCiphertext.length + 2)) := by
  simp [serverHelloPayload, helloFields_length long, encodeUint16, prefixed]
  omega

theorem serverHelloPayload_small (valid : m.validate = .ok ())
    (fits : m.chkemCiphertext.length < 2 ^ 16) : (serverHelloPayload m).length < 2 ^ 20 := by
  obtain ⟨-, long, short, -, -⟩ := m.validate_ok_iff.mp valid
  unfold maxSessionIDLen at short
  rw [serverHelloPayload_length long]
  omega

theorem decodeServerHello_frame (valid : m.validate = .ok ())
    (fits : m.chkemCiphertext.length < 2 ^ 16) :
    decodeServerHello (frame messageTypeServerHello (serverHelloPayload m)) = .ok m := by
  obtain ⟨-, long, short, nonempty, -⟩ := m.validate_ok_iff.mp valid
  unfold maxSessionIDLen at short
  have size := serverHelloPayload_length long
  have small : (serverHelloPayload m).length < 2 ^ 32 := by omega
  have width : (encodeUint16 m.kemSuite : List Byte).length = 2 := by simp [encodeUint16]
  have fields := frame_drop messageTypeServerHello (serverHelloPayload m)
  have suite := drop_at fields (helloFields_length long)
  have ciphertext := drop_at suite width
  have framedSize : (prefixed 2 m.chkemCiphertext).length = 2 + m.chkemCiphertext.length := by
    simp [prefixed]
  have cipher := drop_at ciphertext framedSize
  rw [← List.append_nil (encodeUint16 m.cipherSuite)] at cipher
  simp only [← Nat.add_assoc] at suite ciphertext cipher
  have enough : serverHelloMinPayload ≤ (serverHelloPayload m).length := by
    rw [size, serverHelloMinPayload]
    omega
  apply fst_of_yields
  apply Yields.bind (openFrame_yields (frame_wellFramed small enough))
  rw [frame_payloadLen small, size]
  apply Yields.bind (readHelloFields_here long short fields)
  apply Yields.bind (.reject (by omega))
  apply Yields.bind (uint16At_here suite)
  apply Yields.bind (readLenPrefixed_here nonempty fits ciphertext (by omega))
  apply Yields.bind (.reject (by omega))
  apply Yields.bind (uint16At_here cipher)
  exact .bind (.lift valid) (.pure _)

theorem optionalField_length_pos (width : Nat) (field : List Byte) :
    0 < (optionalField width field).length := by
  unfold optionalField
  split <;> simp

section Optional
variable {offset payloadEnd : Nat}

theorem readStaticCiphertext_here (fits : field.length < 2 ^ 16)
    (here : data.drop offset = optionalField 2 field ++ rest)
    (room : offset + (optionalField 2 field).length ≤ payloadEnd) :
    Yields (readStaticCiphertext data offset payloadEnd)
      (field, offset + (optionalField 2 field).length) := by
  have left : offset < payloadEnd := by
    have positive := optionalField_length_pos 2 field
    omega
  unfold readStaticCiphertext
  rw [if_pos left]
  by_cases present : field.length > 0
  · rw [optionalField, if_pos present] at here room ⊢
    have behind : data.drop (offset + 1) = prefixed 2 field ++ rest :=
      drop_at (show data.drop offset = [lit 1] ++ (prefixed 2 field ++ rest) from here) rfl
    have size : (lit 1 :: prefixed 2 field : List Byte).length = 1 + 2 + field.length := by
      simp [prefixed]
      omega
    rw [size] at room ⊢
    apply Yields.bind (byteAt_here here)
    have read := readLenPrefixed_here (List.length_pos_iff.mp present) fits behind
      (show offset + 1 + 2 + field.length ≤ payloadEnd by omega)
    simpa [Nat.add_assoc] using read
  · have empty : field = [] := List.length_eq_zero_iff.mp (by omega)
    subst empty
    exact .bind (byteAt_here here) (.pure _)

theorem readPSKIdentity_here (short : field.length ≤ 255)
    (here : data.drop offset = optionalField 1 field ++ rest)
    (room : offset + (optionalField 1 field).length ≤ payloadEnd) :
    Yields (readPSKIdentity data offset payloadEnd) field := by
  have left : offset < payloadEnd := by
    have positive := optionalField_length_pos 1 field
    omega
  unfold readPSKIdentity
  rw [if_pos left]
  by_cases present : field.length > 0
  · rw [optionalField, if_pos present] at here room
    have size : (lit 1 :: prefixed 1 field : List Byte).length = 1 + 1 + field.length := by
      simp [prefixed]
      omega
    rw [size] at room
    have lengthByte : data.drop (offset + 1) =
        [lit (UInt8.ofNat field.length)] ++ (field ++ rest) := by
      have step := drop_at (show data.drop offset = [lit 1] ++ (prefixed 1 field ++ rest)
        from here) (show [(lit 1 : Byte)].length = 1 from rfl)
      simpa [prefixed, toBE] using step
    have behind : data.drop (offset + 1 + 1) = field ++ rest := drop_at lengthByte rfl
    have value : (UInt8.ofNat field.length).toNat = field.length := by
      rw [UInt8.toNat_ofNat']
      exact Nat.mod_eq_of_lt (by omega)
    have nonzero : UInt8.ofNat field.length ≠ 0 := by
      intro zero
      rw [zero] at value
      simp at value
      omega
    apply Yields.bind (byteAt_here here)
    apply Yields.bind (.reject (by omega))
    apply Yields.bind (byteAt_here lengthByte)
    apply Yields.bind (.reject (by rw [value]; simp only [nonzero, false_or]; omega))
    rw [value]
    exact bytesAt_here (List.length_pos_iff.mp present) behind
  · have empty : field = [] := List.length_eq_zero_iff.mp (by omega)
    subst empty
    exact .bind (byteAt_here here) (.pure _)

end Optional

theorem flatMap_encodeUint16_length (values : List UInt16) :
    (values.flatMap encodeUint16 : List Byte).length = 2 * values.length := by
  induction values with
  | nil => rfl
  | cons first others ih =>
    simp [List.flatMap_cons, encodeUint16, ih]
    omega

structure Encodable (m : ClientHello Byte) : Prop where
  kemSuites : m.kemSuites.length < 2 ^ 8
  publicKey : m.chkemPublicKey.length < 2 ^ 16
  cipherSuites : m.cipherSuites.length < 2 ^ 16
  staticCiphertext : m.chkemStaticCiphertext.length < 2 ^ 16

theorem clientHelloPayload_length {m : ClientHello Byte} (long : m.random.length = 32) :
    (clientHelloPayload m).length =
      2 + 32 + 1 + m.sessionID.length + 2 + 1 + 2 * m.kemSuites.length +
      (2 + m.chkemPublicKey.length) + 2 + 2 * m.cipherSuites.length +
      (optionalField 2 m.chkemStaticCiphertext).length +
      (optionalField 1 m.pskIdentity).length := by
  simp only [clientHelloPayload, List.length_append, List.length_cons, helloFields_length long,
    encodeUint16, toBE_length, prefixed]
  have suites : (m.kemSuites.flatMap encodeUint16 : List Byte).length = _ :=
    flatMap_encodeUint16_length m.kemSuites
  have ciphers : (m.cipherSuites.flatMap encodeUint16 : List Byte).length = _ :=
    flatMap_encodeUint16_length m.cipherSuites
  omega

theorem optionalField_length_le (width : Nat) (field : List Byte) :
    (optionalField width field).length ≤ 1 + width + field.length := by
  unfold optionalField
  split
  · simp only [prefixed, List.length_cons, List.length_append, toBE_length]
    omega
  · rw [List.length_singleton]
    omega

theorem clientHelloPayload_small {m : ClientHello Byte} (valid : m.validate = .ok ())
    (sizes : Encodable m) : (clientHelloPayload m).length < 2 ^ 20 := by
  obtain ⟨-, long, -, short, -, -, label⟩ := m.validate_ok_iff.mp valid
  unfold maxSessionIDLen at short
  unfold maxPSKIdentitySize at label
  have staticSize := optionalField_length_le 2 m.chkemStaticCiphertext
  have labelSize := optionalField_length_le 1 m.pskIdentity
  rw [clientHelloPayload_length long]
  have := sizes.kemSuites
  have := sizes.publicKey
  have := sizes.cipherSuites
  have := sizes.staticCiphertext
  omega

theorem decodeClientHello_frame {m : ClientHello Byte} (valid : m.validate = .ok ())
    (sizes : Encodable m) :
    decodeClientHello (frame messageTypeClientHello (clientHelloPayload m)) = .ok m := by
  obtain ⟨-, long, share, short, offered, -, label⟩ := m.validate_ok_iff.mp valid
  unfold maxSessionIDLen at short
  unfold maxPSKIdentitySize at label
  have size := clientHelloPayload_length long
  have small : (clientHelloPayload m).length < 2 ^ 32 :=
    (clientHelloPayload_small valid sizes).trans (by decide)
  have shareSize := List.length_pos_iff.mpr share
  have offeredSize := List.length_pos_iff.mpr offered
  have enough : clientHelloMinPayload ≤ (clientHelloPayload m).length := by
    rw [size, clientHelloMinPayload]
    omega
  have suiteCount : (UInt8.ofNat m.kemSuites.length).toNat = m.kemSuites.length := by
    rw [UInt8.toNat_ofNat']
    exact Nat.mod_eq_of_lt sizes.kemSuites
  have cipherCount : (UInt16.ofNat m.cipherSuites.length).toNat = m.cipherSuites.length := by
    rw [UInt16.toNat_ofNat']
    exact Nat.mod_eq_of_lt sizes.cipherSuites
  have width (value : UInt16) : (encodeUint16 value : List Byte).length = 2 := by
    simp [encodeUint16]
  have shareFrame : (prefixed 2 m.chkemPublicKey).length = 2 + m.chkemPublicKey.length := by
    simp [prefixed]
  -- the cursor, field by field
  have fields := frame_drop messageTypeClientHello (clientHelloPayload m)
  have suite := drop_at fields (helloFields_length long)
  have count := drop_at suite (width _)
  have suites := drop_at (show _ = [lit (UInt8.ofNat m.kemSuites.length)] ++ _ from count) rfl
  have key := drop_at suites (flatMap_encodeUint16_length _)
  have number := drop_at key shareFrame
  have ciphers := drop_at number (toBE_length 2 _)
  have flag := drop_at ciphers (flatMap_encodeUint16_length _)
  have identity := drop_at flag rfl
  have numberWord : (toBE 2 m.cipherSuites.length : List Byte) =
      encodeUint16 (UInt16.ofNat m.cipherSuites.length) := by rw [encodeUint16, cipherCount]
  rw [numberWord] at number
  rw [← List.append_nil (optionalField 1 m.pskIdentity)] at identity
  simp only [List.length_singleton, ← Nat.add_assoc]
    at suite count suites key number ciphers flag identity
  apply fst_of_yields
  apply Yields.bind (openFrame_yields (frame_wellFramed small enough))
  rw [frame_payloadLen small, size]
  apply Yields.bind (readHelloFields_here long short fields)
  apply Yields.bind (.reject (by omega))
  apply Yields.bind (uint16At_here suite)
  apply Yields.bind (byteAt_here count)
  rw [suiteCount]
  apply Yields.bind (.reject (by omega))
  apply Yields.bind (uint16sAt_here suites)
  apply Yields.bind (readLenPrefixed_here share sizes.publicKey key (by omega))
  apply Yields.bind (.reject (by omega))
  apply Yields.bind (uint16At_here number)
  rw [cipherCount]
  apply Yields.bind (.reject (by omega))
  apply Yields.bind (uint16sAt_here ciphers)
  apply Yields.bind (readStaticCiphertext_here sizes.staticCiphertext flag (by omega))
  apply Yields.bind (readPSKIdentity_here label identity (by omega))
  exact .bind (.lift valid) (.pure _)

theorem frame_head (messageType : UInt8) (payload : List Byte) :
    (frame messageType payload).drop 0 =
      lit messageType :: (toBE 4 payload.length ++ payload) := rfl

theorem decodeFinished_frame {messageType : UInt8} {verify : List Byte}
    (kind : messageType = messageTypeClientFinished ∨ messageType = messageTypeServerFinished)
    (size : verify.length = 32) : decodeFinished (frame messageType verify) = .ok verify := by
  have nonempty : verify ≠ [] := by
    rintro rfl
    simp at size
  have here : (frame messageType verify).drop headerSize = verify ++ [] := by
    rw [List.append_nil]
    exact frame_drop messageType verify
  have read := bytesAt_here nonempty here
  rw [size] at read
  apply fst_of_yields
  apply Yields.bind (.reject (by simp [size]))
  apply Yields.bind (byteAt_here (frame_head _ _))
  apply Yields.bind (.reject (by tauto))
  exact read

/-! Both hellos. -/

theorem encodeClientHello_frame {m : ClientHello Byte} (valid : m.validate = .ok ()) :
    encodeClientHello m = .ok (frame messageTypeClientHello (clientHelloPayload m)) := by
  rw [encodeClientHello, valid]
  rfl

theorem encodeServerHello_frame (valid : m.validate = .ok ()) :
    encodeServerHello m = .ok (frame messageTypeServerHello (serverHelloPayload m)) := by
  rw [encodeServerHello, valid]
  rfl

omit [Octet Byte] in
/-- Messages that come back from their encodings have different ones. -/
theorem encoding_faithful {α : Type} {encode : α → Except Fault (List Byte)}
    {decode : List Byte → Except Fault α} {m m' : α}
    (back : ∃ data, encode m = .ok data ∧ decode data = .ok m)
    (back' : ∃ data, encode m' = .ok data ∧ decode data = .ok m')
    (same : encode m = encode m') : m = m' := by
  obtain ⟨data, encoded, decoded⟩ := back
  obtain ⟨data', encoded', decoded'⟩ := back'
  rw [encoded, encoded'] at same
  cases same
  exact Except.ok.inj (decoded.symm.trans decoded')

/-- A hello that passes its check, and whose counts and fields fit their prefixes, is read back
as it was, whatever optional fields it has; so no two such hellos have one encoding. -/
theorem hello_round_trip : (∀ m : ClientHello Byte, m.validate = .ok () → Encodable m →
      ∃ data, encodeClientHello m = .ok data ∧ decodeClientHello data = .ok m) ∧
    (∀ m : ServerHello Byte, m.validate = .ok () → m.chkemCiphertext.length < 2 ^ 16 →
      ∃ data, encodeServerHello m = .ok data ∧ decodeServerHello data = .ok m) ∧
    (∀ m m' : ClientHello Byte, m.validate = .ok () → m'.validate = .ok () → Encodable m →
      Encodable m' → encodeClientHello m = encodeClientHello m' → m = m') ∧
    ∀ m m' : ServerHello Byte, m.validate = .ok () → m'.validate = .ok () →
      m.chkemCiphertext.length < 2 ^ 16 → m'.chkemCiphertext.length < 2 ^ 16 →
      encodeServerHello m = encodeServerHello m' → m = m' := by
  have client : ∀ m : ClientHello Byte, m.validate = .ok () → Encodable m →
      ∃ data, encodeClientHello m = .ok data ∧ decodeClientHello data = .ok m :=
    fun m valid sizes => ⟨_, encodeClientHello_frame valid, decodeClientHello_frame valid sizes⟩
  have server : ∀ m : ServerHello Byte, m.validate = .ok () → m.chkemCiphertext.length < 2 ^ 16 →
      ∃ data, encodeServerHello m = .ok data ∧ decodeServerHello data = .ok m :=
    fun m valid fits => ⟨_, encodeServerHello_frame valid, decodeServerHello_frame valid fits⟩
  refine ⟨client, server, fun m m' valid valid' sizes sizes' same => ?_,
    fun m m' valid valid' fits fits' same => ?_⟩
  · exact encoding_faithful (client m valid sizes) (client m' valid' sizes') same
  · exact encoding_faithful (server m valid fits) (server m' valid' fits') same

/-- A ClientHello with a PSK identity and no static ciphertext, and the ServerHello to it. -/
theorem hello_round_trip_psk :
    (∃ data, encodeClientHello (⟨current, List.replicate 32 7, [], 1, [1, 2], [9, 9],
        [cipherSuiteAES256GCM], [], [4]⟩ : ClientHello UInt8) = .ok data ∧
      decodeClientHello data = .ok ⟨current, List.replicate 32 7, [], 1, [1, 2], [9, 9],
        [cipherSuiteAES256GCM], [], [4]⟩) ∧
    ∃ data, encodeServerHello (⟨current, List.replicate 32 8, [3], 1, [6, 6],
        cipherSuiteAES256GCM⟩ : ServerHello UInt8) = .ok data ∧
      decodeServerHello data = .ok ⟨current, List.replicate 32 8, [3], 1, [6, 6],
        cipherSuiteAES256GCM⟩ :=
  ⟨hello_round_trip.1 _ (by decide) ⟨by decide, by decide, by decide, by decide⟩,
    hello_round_trip.2.1 _ (by decide) (by decide)⟩

end QuantumGo.HelloRoundTrip
