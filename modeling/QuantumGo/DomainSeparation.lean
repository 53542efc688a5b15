import QuantumGo.SealingRuns

/-!
Which consumer takes a ciphertext. DATA, CLOSE and the two rekey messages share the traffic
key and the numbers of an epoch. What keeps them apart is the associated data: the header of
a frame is fourteen bytes long, the tuple of a rekey message ten, and each begins with a type
of its own. The key names the direction and the epoch's secret, and with it the session.
-/

namespace QuantumGo.DomainSeparation

open Octets Symbolic Wire Aead KeySchedule Kem Tunnel Records DatagramSession SealingRuns
open SymbolicKem
open DatagramSpecs (trafficKey trafficKey_injective deriveDatagramCiphers_ok_iff cipherOf
  openUnder_sealed)
open DatagramConn (Conn)

variable {Byte : Type} [Octet Byte]

/-- A consumer takes a ciphertext that came with an epoch and a number: routeDatagram a frame
that names its session, and openRekeyControl the body of a rekey message. -/
inductive Accepts {Addr : Type} (crypto : Crypto Byte) (now : Int) (c : Conn Byte Addr) :
    Kind → List Byte → UInt8 → Nat → Prop
  | frame (kind : FrameKind) (data : List Byte) (h : DatagramHeader) (body text : List Byte)
      (found : DatagramConn.lookup data c = .found h body) (typed : h.frameType = kind.frameType)
      (opened : datagramOpen crypto now h.epoch h.seq body (datagramAAD data) c.session =
        .ok text) :
      Accepts crypto now c (.frame kind) body h.epoch h.seq
  | control (kind : ControlKind) (epoch : UInt8) (body text : List Byte)
      (opened : openRekeyControl crypto now kind.msgType epoch body c.session = .ok text) :
      Accepts crypto now c (.control kind) (body.drop 8) epoch (ofBE (body.take 8))

def secretsOf (events : List (Event Byte .datagram)) : List (List Byte) :=
  events.filterMap fun
    | .keys (.advance _ secret) => some secret
    | _ => none

structure MadeOf (crypto : Crypto Byte) (role : Role) (secret : List Byte)
    (epoch : DatagramEpoch Byte) : Prop where
  size : secret.length = sharedSecretSize
  send : epoch.sendCipher.key = trafficKey crypto role secret
  recv : epoch.recvCipher.key = trafficKey crypto role.peer secret

def Descends (crypto : Crypto Byte) (role : Role) (secrets : List (List Byte)) (s : Session Byte) :
    Prop :=
  ∀ epochs, s.dgramEpochs = some epochs → ∀ epoch, epoch = epochs.cur ∨ epochs.prev = some epoch →
    ∃ secret ∈ secrets, MadeOf crypto role secret epoch

def associated (index : UInt32) (epoch : UInt8) (seq : Nat) : Kind → List Byte
  | .record => toBE 8 seq
  | .frame kind => encodeDatagramHeader ⟨kind.frameType, epoch, index, seq⟩
  | .control kind => rekeyAAD kind.msgType epoch seq

structure Sealed (crypto : Crypto Byte) (role : Role) (secrets : List (List Byte)) (index : UInt32)
    (e : Sealing Byte) : Prop where
  key : ∃ secret ∈ secrets, secret.length = sharedSecretSize ∧
    e.cipher.key = trafficKey crypto role secret
  fits : e.seq < seqLimit
  kind : e.kind ≠ .record
  aad : e.aad = associated index e.headerEpoch e.seq e.kind

variable {secrets : List (List Byte)} {index : UInt32} {e : Sealing Byte} {s : Session Byte}

section Opening
variable {crypto : Crypto Byte} {role role' : Role} {secrets' : List (List Byte)} {now : Int}
  {epoch : UInt8} {data body : List Byte} {h : DatagramHeader}

/-- The receive cipher of an epoch is made of a secret of the session. -/
theorem Descends.recv (descends : Descends crypto role secrets s) {live : Cipher Byte}
    (found : datagramRecvCipher now epoch s = some live) :
    ∃ secret ∈ secrets, secret.length = sharedSecretSize ∧
      live.key = trafficKey crypto role.peer secret := by
  unfold datagramRecvCipher at found
  cases present : s.dgramEpochs with
  | none => simp [present] at found
  | some epochs =>
    rw [present] at found
    dsimp only at found
    split at found
    · obtain rfl := Option.some.inj found
      obtain ⟨secret, known, made⟩ := descends epochs present epochs.cur (.inl rfl)
      exact ⟨secret, known, made.size, made.recv⟩
    · cases before : epochs.prev with
      | none => simp [before] at found
      | some prev =>
        rw [before] at found
        dsimp only at found
        split at found
        · obtain rfl := Option.some.inj found
          obtain ⟨secret, known, made⟩ := descends epochs present prev (.inr before)
          exact ⟨secret, known, made.size, made.recv⟩
        · cases found

/-- What a cipher of one session opens and one of another has sealed: the sessions share the
secret, in opposite directions, and the associated data is the same. -/
theorem opened_sealed (aead : AeadIdeal crypto)
    (xof : XofIdeal 32 crypto.xof) (made : Sealed crypto role secrets index e)
    (descends : Descends crypto role' secrets' s) {seq : Nat} {aad text : List Byte}
    (opened : openUnder crypto (datagramRecvCipher now epoch s) s.recvNoncePrefix seq
      (e.ciphertext crypto) aad = .ok text) :
    aad = e.aad ∧ role' = role.peer ∧ ∃ secret ∈ secrets, secret ∈ secrets' := by
  obtain ⟨live, found, same⟩ := openUnder_sealed aead opened
  obtain ⟨-, keys, -, -, aads⟩ := aead.injective _ _ _ _ _ _ _ _ _ _ same
  obtain ⟨secret, known, size, key⟩ := made.key
  obtain ⟨secret', known', size', key'⟩ := descends.recv found
  obtain ⟨roles, rfl⟩ := trafficKey_injective xof size size' (key.symm.trans (keys.trans key'))
  refine ⟨aads.symm, ?_, secret, known, known'⟩
  rw [roles]
  cases role' <;> rfl

theorem datagramAAD_parsed (parsed : parseDatagramHeader data = .ok (h, body)) :
    (datagramAAD data).length = datagramHeaderSize := by
  unfold parseDatagramHeader at parsed
  split at parsed
  · split at parsed
    · cases parsed
    · rename_i frameType epoch rest long
      simpa [datagramAAD] using not_lt.mp long
  · cases parsed

theorem parse_of_aad {header : DatagramHeader} (fits : header.seq < seqLimit)
    (parsed : parseDatagramHeader data = .ok (h, body))
    (same : datagramAAD data = encodeDatagramHeader header) : h = header := by
  have whole : data = encodeDatagramHeader header ++ data.drop datagramHeaderSize := by
    rw [← same]
    exact (List.take_append_drop _ _).symm
  rw [whole, parse_encode fits] at parsed
  exact (Prod.mk.inj (Except.ok.inj parsed)).1.symm

theorem lit_injective {left right : UInt8} (same : (lit left : Byte) = lit right) :
    left = right := by
  simpa using congrArg val same

theorem frameType_injective {left right : FrameKind} (same : left.frameType = right.frameType) :
    left = right := by
  cases left <;> cases right <;> first | rfl | exact absurd same (by decide)

theorem msgType_injective {left right : ControlKind} (same : left.msgType = right.msgType) :
    left = right := by
  cases left <;> cases right <;> first | rfl | exact absurd same (by decide)

theorem frame_matches {kind : FrameKind} (made : Sealed crypto role secrets index e)
    (parsed : parseDatagramHeader data = .ok (h, body)) (typed : h.frameType = kind.frameType)
    (same : datagramAAD data = e.aad) :
    e.kind = .frame kind ∧ h.epoch = e.headerEpoch ∧ h.seq = e.seq ∧ h.recvIndex = index := by
  have aad := same.trans made.aad
  cases which : e.kind with
  | record => exact absurd which made.kind
  | control kind' =>
    -- the tuple of a rekey message is shorter than a header
    have lengths := congrArg List.length aad
    rw [datagramAAD_parsed parsed, which] at lengths
    simp [associated, rekeyAAD, datagramHeaderSize] at lengths
  | frame kind' =>
    rw [which] at aad
    obtain rfl := parse_of_aad made.fits parsed aad
    exact ⟨congrArg _ (frameType_injective typed), rfl, rfl, rfl⟩

theorem control_matches {kind : ControlKind} {digits : List Byte}
    (made : Sealed crypto role secrets index e) (size : digits.length = 8)
    (same : rekeyAAD kind.msgType epoch (ofBE digits) = e.aad) :
    e.kind = .control kind ∧ epoch = e.headerEpoch ∧ ofBE digits = e.seq := by
  have aad := same.trans made.aad
  cases which : e.kind with
  | record => exact absurd which made.kind
  | frame kind' =>
    have lengths := congrArg List.length aad
    rw [which] at lengths
    simp [associated, rekeyAAD, datagramHeaderSize] at lengths
  | control kind' =>
    rw [which] at aad
    simp only [associated, rekeyAAD, List.cons.injEq] at aad
    obtain ⟨types, epochs, seqs⟩ := aad
    have fits : ofBE digits < 256 ^ 8 := size ▸ ofBE_lt digits
    refine ⟨congrArg _ (msgType_injective (lit_injective types)).symm, lit_injective epochs, ?_⟩
    exact toBE_injective fits (by simpa [seqLimit] using made.fits) seqs

theorem lookup_found {Addr : Type} {c : Conn Byte Addr}
    (found : DatagramConn.lookup data c = .found h body) :
    parseDatagramHeader data = .ok (h, body) ∧ h.recvIndex = c.index := by
  unfold DatagramConn.lookup at found
  split at found
  · rename_i frameType h' body' peeked parsed
    split at found
    · rename_i named
      obtain ⟨rfl, rfl⟩ := DatagramConn.Stage.found.inj found
      exact ⟨parsed, named.2.1⟩
    · cases found
  · cases found

/-- The consumer that takes a ciphertext is the one of its kind. -/
theorem Accepts.matches {Addr : Type} (aead : AeadIdeal crypto) (xof : XofIdeal 32 crypto.xof)
    {c : Conn Byte Addr} (made : Sealed crypto role secrets index e)
    (descends : Descends crypto role' secrets' c.session) {kind : Kind} {seq : Nat}
    (accepts : Accepts crypto now c kind (e.ciphertext crypto) epoch seq) :
    (kind = e.kind ∧ epoch = e.headerEpoch ∧ seq = e.seq ∧
      ∀ frame, kind = .frame frame → c.index = index) ∧
      role' = role.peer ∧ ∃ secret ∈ secrets, secret ∈ secrets' := by
  generalize text : e.ciphertext crypto = ciphertext at accepts
  cases accepts with
  | frame kind data h body text' found typed opened =>
    subst text
    obtain ⟨aad, opposite, shared⟩ := opened_sealed aead xof made descends opened
    obtain ⟨parsed, here⟩ := lookup_found found
    obtain ⟨kinds, epochs, seqs, indices⟩ := frame_matches made parsed typed aad
    exact ⟨⟨kinds.symm, epochs, seqs, fun _ _ => here.symm.trans indices⟩, opposite, shared⟩
  | control kind epoch body text' opened =>
    unfold openRekeyControl at opened
    split at opened
    · cases opened
    · rename_i long
      rw [← text] at opened
      obtain ⟨aad, opposite, shared⟩ := opened_sealed aead xof made descends opened
      have size : (body.take 8).length = 8 := by simp; omega
      obtain ⟨kinds, epochs, seqs⟩ := control_matches made size aad
      exact ⟨⟨kinds.symm, epochs, seqs, nofun⟩, opposite, shared⟩

end Opening

/-! What a run seals. -/

section Runs
variable {crypto : Crypto Byte} {role : Role} {w : World Byte .datagram} {more : List (List Byte)}

structure Separated (crypto : Crypto Byte) (role : Role) (secrets : List (List Byte))
    (w : World Byte .datagram) : Prop where
  acts : w.session.role = role
  counter : w.session.sendSeq < seqLimit
  numbers : ∀ task ∈ w.tasks, ∀ seq ∈ task.number, seq < seqLimit
  epochs : Descends crypto role secrets w.session
  log : ∀ e ∈ w.log, Sealed crypto role secrets w.index e

theorem Descends.mono (descends : Descends crypto role secrets s) (subset : secrets ⊆ more) :
    Descends crypto role more s := by
  intro epochs present epoch which
  obtain ⟨secret, known, made⟩ := descends epochs present epoch which
  exact ⟨secret, subset known, made⟩

theorem Sealed.mono (made : Sealed crypto role secrets index e) (subset : secrets ⊆ more) :
    Sealed crypto role more index e := by
  obtain ⟨secret, known, rest⟩ := made.key
  exact { made with key := ⟨secret, subset known, rest⟩ }

theorem Separated.mono (separated : Separated crypto role secrets w) (subset : secrets ⊆ more) :
    Separated crypto role more w :=
  { separated with
    epochs := separated.epochs.mono subset
    log := fun e logged => (separated.log e logged).mono subset }

theorem advance_descends (sized : XofSized crypto.xof) (now : Int) (secret : List Byte)
    (descends : Descends crypto s.role secrets s) :
    (advanceDatagramEpoch crypto now secret s).2.role = s.role ∧
    Descends crypto s.role (secret :: secrets) (advanceDatagramEpoch crypto now secret s).2 := by
  obtain same | ⟨epochs, send, recv, present, size, derived⟩ :=
    advanceDatagramEpoch_cases crypto now secret s
  · rw [same]
    exact ⟨rfl, descends.mono (List.subset_cons_self _ _)⟩
  · rw [advanceDatagramEpoch_advances now size present derived]
    refine ⟨rfl, ?_⟩
    obtain ⟨-, -, ciphers⟩ := (deriveDatagramCiphers_ok_iff sized).mp derived
    obtain ⟨rfl, rfl⟩ := Prod.mk.inj ciphers
    rintro _ ⟨⟩ epoch (rfl | kept)
    · exact ⟨secret, List.mem_cons_self, size, rfl, rfl⟩
    · obtain rfl := Option.some.inj kept
      obtain ⟨old, known, made⟩ := descends epochs present epochs.cur (.inl rfl)
      exact ⟨old, List.mem_cons_of_mem _ known, made.size, made.send, made.recv⟩

theorem step_sealed {task : Task Byte .datagram} (descends : Descends crypto role secrets s)
    (narrow : ∀ seq ∈ task.number, seq < seqLimit) (made : (task.step index s).2.2 = some e) :
    Sealed crypto role secrets index e := by
  have current {epochs : DatagramEpochState Byte} (present : s.dgramEpochs = some epochs) :
      ∃ secret ∈ secrets, secret.length = sharedSecretSize ∧
        epochs.cur.sendCipher.key = trafficKey crypto role secret := by
    obtain ⟨secret, known, made⟩ := descends epochs present epochs.cur (.inl rfl)
    exact ⟨secret, known, made.size, made.send⟩
  cases step_seals made with
  | frame kind payload rest seq epoch made =>
    obtain ⟨epochs, present, -, rfl⟩ := frameSealing_some_iff.mp made
    exact ⟨current present, narrow seq rfl, (by rintro ⟨⟩), rfl⟩
  | control kind payload seq made =>
    obtain ⟨epochs, present, rfl⟩ := controlSealing_some_iff.mp made
    exact ⟨current present, narrow seq rfl, (by rintro ⟨⟩), rfl⟩

theorem Separated.step (sized : XofSized crypto.xof) (separated : Separated crypto role secrets w)
    (e : Event Byte .datagram) :
    Separated crypto role (secretsOf [e] ++ secrets) (perform crypto w e) := by
  cases e with
  | call request =>
    refine { separated with numbers := fun task inside => ?_ }
    rcases List.mem_append.mp inside with old | new
    · exact separated.numbers task old
    · rw [List.mem_singleton.mp new, request_number]
      exact nofun
  | keys op =>
    cases op with
    | close => exact { separated with }
    | advance now secret =>
      have descends := separated.epochs
      rw [← separated.acts] at descends
      obtain ⟨same, descends'⟩ := advance_descends sized now secret descends
      rw [separated.acts] at same descends'
      have more := separated.mono (List.subset_cons_self secret secrets)
      exact { more with
        acts := same
        counter := (changeKeys_switches (.advance now secret) w.session).sendSeq ▸ separated.counter
        epochs := descends' }
  | step i =>
    cases present : w.tasks[i]? with
    | none =>
      have same : perform crypto w (.step i) = w := by simp only [perform, present]
      rw [same]
      exact separated
    | some task =>
      have narrow := separated.numbers task (List.mem_of_getElem? present)
      simp only [perform, present]
      obtain ⟨-, -, quiet, held, drew⟩ | ⟨-, same, fewer⟩ := task.step_cases w.index w.session
      · refine ⟨?_, ?_, fun task' inside seq number => ?_, ?_, fun e logged => ?_⟩
        · rw [drew]
          exact separated.acts
        · rw [drew]
          exact Nat.mod_lt _ (by simp [seqLimit])
        · rcases List.mem_or_eq_of_mem_set inside with old | rfl
          · exact separated.numbers task' old seq number
          · rw [held] at number
            exact Option.some.inj number ▸ separated.counter
        · rw [drew]
          exact separated.epochs
        · rw [quiet, Option.toList_none, List.append_nil] at logged
          exact separated.log e logged
      · refine ⟨?_, ?_, fun task' inside seq number => ?_, ?_, fun e logged => ?_⟩
        · rw [same]
          exact separated.acts
        · rw [same]
          exact separated.counter
        · rcases List.mem_or_eq_of_mem_set inside with old | rfl
          · exact separated.numbers task' old seq number
          · exact narrow seq (Option.mem_toList.mp (fewer.subset
              (List.mem_append_right _ (Option.mem_toList.mpr number))))
        · rw [same]
          exact separated.epochs
        · rcases List.mem_append.mp logged with old | new
          · exact separated.log e old
          · exact step_sealed separated.epochs narrow (Option.mem_toList.mp new)

theorem Separated.run (sized : XofSized crypto.xof) (events : List (Event Byte .datagram))
    (separated : Separated crypto role secrets w) :
    Separated crypto role (secrets ++ secretsOf events) (after crypto events w) := by
  induction events generalizing w secrets with
  | nil => simpa [secretsOf, after, Interleaving.run] using separated
  | cons e rest ih =>
    refine (ih (separated.step sized e)).mono fun secret known => ?_
    have whole : secretsOf (e :: rest) = secretsOf [e] ++ secretsOf rest := by
      simp only [secretsOf, ← List.filterMap_append, List.singleton_append]
    simp only [whole, List.mem_append] at known ⊢
    tauto

theorem separated_start {env : Env Byte} (sized : XofSized env.xof) {now : Int} {secret : List Byte}
    {suite : UInt16} {s₀ : Session Byte} (index : UInt32) (fits : s₀.sendSeq < seqLimit)
    (keyed : initializeDatagramKeys env.toCrypto now secret suite s₀ = (.ok (), s)) :
    Separated env.toCrypto s.role [secret] (start .datagram s index) := by
  obtain ⟨-, size, ciphers, prefixes, derived, -, rfl⟩ :=
    FlightSpecs.initializeDatagramKeys_ok_iff.mp keyed
  obtain ⟨-, -, rfl⟩ := (deriveDatagramCiphers_ok_iff sized).mp derived
  refine ⟨rfl, fits, nofun, ?_, nofun⟩
  rintro _ ⟨⟩ epoch (rfl | none)
  · exact ⟨secret, List.mem_cons_self, size, rfl, rfl⟩
  · cases none

end Runs

/-- A ciphertext of a session is taken only by the consumer of its kind, in the opposite
direction of the same session and with the epoch, the number and the receive index it was
sealed with. `owner` tells which session a secret belongs to. -/
theorem kinds_separated {Addr ι : Type} {env : Env Byte} (aead : AeadIdeal env.toCrypto)
    (xof : XofIdeal 32 env.xof) (owner : List Byte → ι)
    -- the sealing end, keyed and run
    {s₀ s : Session Byte} {secret : List Byte} {suite : UInt16} {now : Int}
    (fits : s₀.sendSeq < seqLimit)
    (keyed : initializeDatagramKeys env.toCrypto now secret suite s₀ = (.ok (), s))
    (peerIndex : UInt32) (events : List (Event Byte .datagram)) {session : ι}
    (owned : ∀ drawn ∈ secret :: secretsOf events, owner drawn = session)
    -- an end of any session
    {p₀ p : Session Byte} {secret' : List Byte} {suite' : UInt16} {now' : Int}
    (fits' : p₀.sendSeq < seqLimit)
    (keyed' : initializeDatagramKeys env.toCrypto now' secret' suite' p₀ = (.ok (), p))
    (peerIndex' : UInt32) (events' : List (Event Byte .datagram)) {session' : ι}
    (owned' : ∀ drawn ∈ secret' :: secretsOf events', owner drawn = session')
    {c : Conn Byte Addr} (receives : c.session.dgramEpochs =
      (after env.toCrypto events' (start .datagram p peerIndex')).session.dgramEpochs)
    {e : Sealing Byte} (logged : e ∈ (after env.toCrypto events (start .datagram s peerIndex)).log)
    {clock : Int} {kind : Kind} {epoch : UInt8} {seq : Nat}
    (accepts : Accepts env.toCrypto clock c kind (e.ciphertext env.toCrypto) epoch seq) :
    kind = e.kind ∧ p.role = s.role.peer ∧ session' = session ∧ epoch = e.headerEpoch ∧
      seq = e.seq ∧ ∀ frame, kind = .frame frame → c.index = peerIndex := by
  have sealing := (separated_start xof.length peerIndex fits keyed).run xof.length events
  have receiving := (separated_start xof.length peerIndex' fits' keyed').run xof.length events'
  have descends : Descends env.toCrypto p.role ([secret'] ++ secretsOf events') c.session := by
    intro epochs present
    exact receiving.epochs epochs (receives ▸ present)
  obtain ⟨⟨kinds, epochs, seqs, indices⟩, opposite, shared, known, known'⟩ :=
    Accepts.matches aead xof (sealing.log e logged) descends accepts
  have index : (after env.toCrypto events (start .datagram s peerIndex)).index = peerIndex :=
    after_index events _
  refine ⟨kinds, opposite, ?_, epochs, seqs, fun frame which => (indices frame which).trans index⟩
  rw [← owned shared known, ← owned' shared known']

def receiver (session : Session Letter) : Conn Letter Unit :=
  ⟨session, 7, 9, (), true, false, [], 0, 0, none, none, []⟩

theorem receiver_accepts {p : Session Letter} {e : Sealing Letter}
    (found : DatagramConn.lookup (e.frame env.toCrypto) (receiver p) =
      .found ⟨datagramFrameData, 0, 7, 0⟩ (e.ciphertext env.toCrypto))
    (opened : datagramOpen env.toCrypto 0 0 0 (e.ciphertext env.toCrypto)
      (datagramAAD (e.frame env.toCrypto)) p = .ok [lit 1]) :
    Accepts env.toCrypto 0 (receiver p) (.frame .data) (e.ciphertext env.toCrypto) 0 0 :=
  .frame .data _ ⟨datagramFrameData, 0, 7, 0⟩ _ [lit 1] found rfl opened

/-- A Send of an initiator is taken by the responder under the same secret. -/
theorem kinds_separated_data : ∃ s p e, IsDatagram .initiator s ∧ IsDatagram .responder p ∧
    e ∈ (after env.toCrypto [.call (.send [lit 1]), .step 0, .step 0, .step 0]
      (start .datagram s 7)).log ∧
    Accepts env.toCrypto 0 (receiver p) (.frame .data) (e.ciphertext env.toCrypto) 0 0 ∧
    e.kind = .frame .data ∧ p.role = s.role.peer ∧ e.headerEpoch = 0 ∧ e.seq = 0 := by
  obtain ⟨s, p, e, ⟨i, newI, keyedI⟩, ⟨r, newR, keyedR⟩, logged, accepts⟩ :
      ∃ s p e, IsDatagram .initiator s ∧ IsDatagram .responder p ∧
        e ∈ (after env.toCrypto [.call (.send [lit 1]), .step 0, .step 0, .step 0]
          (start .datagram s 7)).log ∧
        Accepts env.toCrypto 0 (receiver p) (.frame .data) (e.ciphertext env.toCrypto) 0 0 := by
    refine ⟨_, _, _, ⟨_, rfl, rfl⟩, ⟨_, rfl, rfl⟩, List.mem_cons_self, receiver_accepts ?_ ?_⟩
    · decide +kernel
    · decide +kernel
  have narrow {role : Role} {new : Session Letter} (made : IsNew role new) :
      new.sendSeq < seqLimit := by
    cases role <;> cases made <;> decide +kernel
  obtain ⟨kind, opposite, -, epoch, seq, -⟩ := kinds_separated env_ideal.aead
    env_ideal.xof (fun _ => ()) (narrow newI) keyedI 7 _ (fun _ _ => rfl)
    (narrow newR) keyedR 9 [] (fun _ _ => rfl) (c := receiver p) rfl logged accepts
  exact ⟨s, p, e, ⟨i, newI, keyedI⟩, ⟨r, newR, keyedR⟩, logged, accepts, kind.symm,
    opposite, epoch.symm, seq.symm⟩

end QuantumGo.DomainSeparation
