import QuantumGo.DatagramConn

/-!
HANDSHAKE frames (pkg/protocol/datagram_codec.go) and the fragmenter of
pkg/tunnel/dgram_handshake.go. A message is cut into slices of at most what a datagram holds
behind the two headers and the cookie; padding goes behind the slice and the parser cuts it
off.
-/

namespace QuantumGo.HandshakeFrames

open Octets Wire Records DatagramSession
open DatagramConn (datagramMTU)

variable {Byte : Type}

def datagramHandshakeExtSize : Nat := 4 + 1 + 2 + 2 + 2 + 1
def datagramMaxHandshakeMessageSize : Nat := 4096

structure DatagramHandshakeHeader (Byte : Type) extends DatagramHeader where
  senderIndex : UInt32
  msgType : UInt8
  fragOffset : UInt16
  fragLength : UInt16
  totalLength : UInt16
  cookie : List Byte
  deriving DecidableEq

variable {h : DatagramHandshakeHeader Byte} {off : Nat}

section Codec
variable [Octet Byte]

def encodeExtension (h : DatagramHandshakeHeader Byte) : List Byte :=
  toBE 4 h.senderIndex.toNat ++ lit h.msgType :: (toBE 2 h.fragOffset.toNat ++
    (toBE 2 h.fragLength.toNat ++ (toBE 2 h.totalLength.toNat ++
      lit (UInt8.ofNat h.cookie.length) :: h.cookie)))

def encodeDatagramHandshake (h : DatagramHandshakeHeader Byte) (fragment : List Byte) :
    Except Fault (List Byte) :=
  if h.cookie.length > 255 then .error (.err .invalidMessage)
  else .ok (encodeDatagramHeader ⟨datagramFrameHandshake, h.epoch, h.recvIndex, h.seq⟩ ++
    (encodeExtension h ++ fragment))

/-- The rest of the header, and the fragment without what is behind it. -/
def parseExtension (base : DatagramHeader) :
    List Byte → Except Fault (DatagramHandshakeHeader Byte × List Byte)
  | s0 :: s1 :: s2 :: s3 :: msgType :: o0 :: o1 :: l0 :: l1 :: t0 :: t1 :: cookieLen :: rest =>
    let fragOffset := UInt16.ofNat (ofBE [o0, o1])
    let fragLength := UInt16.ofNat (ofBE [l0, l1])
    let totalLength := UInt16.ofNat (ofBE [t0, t1])
    let fragment := rest.drop (val cookieLen).toNat
    if rest.length < (val cookieLen).toNat then .error (.err .invalidMessage)
    else if fragment.length < fragLength.toNat then .error (.err .invalidMessage)
    else if fragOffset.toNat + fragLength.toNat > totalLength.toNat then
      .error (.err .invalidMessage)
    else .ok (⟨base, UInt32.ofNat (ofBE [s0, s1, s2, s3]), val msgType, fragOffset, fragLength,
      totalLength, rest.take (val cookieLen).toNat⟩, fragment.take fragLength.toNat)
  | _ => .error (.err .invalidMessage)

def parseDatagramHandshake (data : List Byte) :
    Except Fault (DatagramHandshakeHeader Byte × List Byte) :=
  match parseDatagramHeader data with
  | .error stop => .error stop
  | .ok (base, ext) =>
    if base.frameType ≠ datagramFrameHandshake then .error (.err .invalidMessage)
    else parseExtension base ext

variable (Byte) in
theorem ofNat_ofBE_toBE_two (n : UInt16) :
    UInt16.ofNat (ofBE (toBE 2 n.toNat : List Byte)) = n := by
  rw [ofBE_toBE_of_lt (by simpa using n.toNat_lt), UInt16.ofNat_toNat]

variable (Byte) in
theorem ofNat_ofBE_toBE_four (n : UInt32) :
    UInt32.ofNat (ofBE (toBE 4 n.toNat : List Byte)) = n := by
  rw [ofBE_toBE_of_lt (by simpa using n.toNat_lt), UInt32.ofNat_toNat]

theorem parseExtension_encode {fragment : List Byte} (short : h.cookie.length ≤ 255)
    (size : fragment.length = h.fragLength.toNat)
    (inside : h.fragOffset.toNat + h.fragLength.toNat ≤ h.totalLength.toNat) (base : DatagramHeader)
    (padding : List Byte) :
    parseExtension base (encodeExtension h ++ (fragment ++ padding)) =
      .ok ({ h with toDatagramHeader := base }, fragment) := by
  have cookieLen : (UInt8.ofNat h.cookie.length).toNat = h.cookie.length := by
    simp only [UInt8.toNat_ofNat']
    exact Nat.mod_eq_of_lt (by omega)
  have sender := ofNat_ofBE_toBE_four Byte h.senderIndex
  have offset := ofNat_ofBE_toBE_two Byte h.fragOffset
  have length := ofNat_ofBE_toBE_two Byte h.fragLength
  have total := ofNat_ofBE_toBE_two Byte h.totalLength
  simp only [toBE] at sender offset length total
  simp only [encodeExtension, toBE, List.cons_append, List.nil_append, parseExtension,
    sender, offset, length, total, Octet.val_lit, cookieLen]
  rw [if_neg (by simp), if_neg (by simp [size]), if_neg (by omega)]
  simp [← size]

/-- A frame parses into its header and its fragment, whatever is behind it. -/
theorem parse_encode_handshake {fragment frame : List Byte} (fits : h.seq < seqLimit)
    (size : fragment.length = h.fragLength.toNat)
    (inside : h.fragOffset.toNat + h.fragLength.toNat ≤ h.totalLength.toNat)
    (encoded : encodeDatagramHandshake h fragment = .ok frame) (padding : List Byte) :
    parseDatagramHandshake (frame ++ padding) =
      .ok ({ h with frameType := datagramFrameHandshake }, fragment) := by
  unfold encodeDatagramHandshake at encoded
  split at encoded
  · cases encoded
  · rename_i short
    obtain rfl := Except.ok.inj encoded
    have parsed := @parse_encode Byte _ ⟨datagramFrameHandshake, h.epoch, h.recvIndex, h.seq⟩ fits
      (encodeExtension h ++ (fragment ++ padding))
    rw [List.append_assoc, List.append_assoc, parseDatagramHandshake, parsed]
    dsimp only
    rw [if_neg (by simp), parseExtension_encode (by omega) size inside]

/-! The fragmenter. -/

def maxHandshakeFragmentPayload (cookieLen : Nat) : Nat :=
  datagramMTU - datagramHeaderSize - datagramHandshakeExtSize - cookieLen

def fragmentHeader (base : DatagramHandshakeHeader Byte) (total maxFrag off seq : Nat) :
    DatagramHandshakeHeader Byte :=
  { base with
    seq, fragOffset := UInt16.ofNat off
    fragLength := UInt16.ofNat (min (off + maxFrag) total - off),
    totalLength := UInt16.ofNat total }

def padTo (pad : Bool) (frame : List Byte) : List Byte :=
  if pad then frame ++ List.replicate (datagramMTU - frame.length) (lit 0) else frame

/-- The loop of `fragmentHandshake`. Every round moves on by a byte at least, so the length of
the message is fuel enough. -/
def fragmentLoop (base : DatagramHandshakeHeader Byte) (msg : List Byte) (pad : Bool)
    (maxFrag : Nat) : Nat → Nat → Nat → Except Fault (List (List Byte))
  | 0, _, _ => .ok []
  | fuel + 1, off, seq =>
    if off < msg.length then do
      let frame ← encodeDatagramHandshake (fragmentHeader base msg.length maxFrag off seq)
        (slice msg off (min (off + maxFrag) msg.length))
      let frames ← fragmentLoop base msg pad maxFrag fuel (off + maxFrag) ((seq + 1) % seqLimit)
      return padTo pad frame :: frames
    else .ok []

def fragmentHandshake (base : DatagramHandshakeHeader Byte) (msg : List Byte) (pad : Bool) :
    Except Fault (List (List Byte)) :=
  if msg.length = 0 ∨ msg.length > datagramMaxHandshakeMessageSize then
    .error (.err .messageTooLarge)
  else
    let maxFrag := maxHandshakeFragmentPayload base.cookie.length
    if maxFrag ≤ 0 then .error (.err .invalidMessage)
    else fragmentLoop base msg pad maxFrag msg.length 0 base.seq

structure IsFragment (base : DatagramHandshakeHeader Byte) (msg : List Byte) (pad : Bool)
    (off : Nat) (frame : List Byte) : Prop where
  start : off < msg.length
  aligned : maxHandshakeFragmentPayload base.cookie.length ∣ off
  made : ∃ body, encodeDatagramHandshake (fragmentHeader base msg.length
        (maxHandshakeFragmentPayload base.cookie.length) off
        ((base.seq + off / maxHandshakeFragmentPayload base.cookie.length) % seqLimit))
      (slice msg off (min (off + maxHandshakeFragmentPayload base.cookie.length) msg.length)) =
        .ok body ∧ frame = padTo pad body

section Fragments
variable {base : DatagramHandshakeHeader Byte} {msg : List Byte} {pad : Bool}

theorem encodeDatagramHandshake_ok (fragment : List Byte) (short : h.cookie.length ≤ 255) :
    ∃ frame, encodeDatagramHandshake h fragment = .ok frame ∧
      frame.length = datagramHeaderSize + datagramHandshakeExtSize + h.cookie.length +
        fragment.length := by
  refine ⟨_, if_neg (by omega), ?_⟩
  simp [encodeExtension, datagramHeaderSize, datagramHandshakeExtSize]
  omega

omit [Octet Byte] in
theorem maxHandshakeFragmentPayload_pos {cookieLen : Nat} (short : cookieLen ≤ 255) :
    0 < maxHandshakeFragmentPayload cookieLen := by
  simp only [maxHandshakeFragmentPayload, datagramMTU, datagramHeaderSize, datagramHandshakeExtSize]
  omega

/-- The loop succeeds, and makes one frame at every multiple of the slice size from `off` on. -/
theorem fragmentLoop_makes (msg : List Byte) (pad : Bool) (short : base.cookie.length ≤ 255)
    (fuel off : Nat) (enough : msg.length ≤ off + fuel)
    (aligned : maxHandshakeFragmentPayload base.cookie.length ∣ off) :
    ∃ frames, fragmentLoop base msg pad (maxHandshakeFragmentPayload base.cookie.length) fuel off
        ((base.seq + off / maxHandshakeFragmentPayload base.cookie.length) % seqLimit) =
          .ok frames ∧
      (∀ frame ∈ frames, ∃ off', IsFragment base msg pad off' frame) ∧
      ∀ off' ≥ off, off' < msg.length → maxHandshakeFragmentPayload base.cookie.length ∣ off' →
        ∃ frame ∈ frames, IsFragment base msg pad off' frame := by
  have positive := maxHandshakeFragmentPayload_pos short
  induction fuel generalizing off with
  | zero =>
    refine ⟨[], rfl, nofun, fun off' behind start _ => ?_⟩
    omega
  | succ fuel ih =>
    unfold fragmentLoop
    by_cases start : off < msg.length
    · rw [if_pos start]
      obtain ⟨body, encoded, -⟩ := encodeDatagramHandshake_ok
        (h := fragmentHeader base msg.length (maxHandshakeFragmentPayload base.cookie.length) off
          ((base.seq + off / maxHandshakeFragmentPayload base.cookie.length) % seqLimit))
        (slice msg off (min (off + maxHandshakeFragmentPayload base.cookie.length) msg.length))
        short
      obtain ⟨frames, run, sound, complete⟩ := ih
        (off + maxHandshakeFragmentPayload base.cookie.length) (by omega)
        (Nat.dvd_add aligned (dvd_refl _))
      rw [Nat.add_div_right _ positive] at run
      have next :
          ((base.seq + off / maxHandshakeFragmentPayload base.cookie.length) % seqLimit + 1) %
            seqLimit =
          (base.seq + (off / maxHandshakeFragmentPayload base.cookie.length).succ) % seqLimit := by
        rw [Nat.mod_add_mod]
        rfl
      have first : IsFragment base msg pad off (padTo pad body) :=
        ⟨start, aligned, body, encoded, rfl⟩
      refine ⟨padTo pad body :: frames, by rw [encoded, next, run]; rfl, ?_, ?_⟩
      · intro frame inside
        rcases List.mem_cons.mp inside with rfl | later
        · exact ⟨off, first⟩
        · exact sound frame later
      · intro off' behind start' aligned'
        rcases Nat.eq_or_lt_of_le behind with rfl | further
        · exact ⟨_, List.mem_cons_self, first⟩
        · -- the next multiple is a whole slice further
          have step : off + maxHandshakeFragmentPayload base.cookie.length ≤ off' := by
            have := Nat.le_of_dvd (by omega) (Nat.dvd_sub aligned' aligned)
            omega
          obtain ⟨frame, inside, made⟩ := complete off' step start' aligned'
          exact ⟨frame, List.mem_cons_of_mem _ inside, made⟩
    · rw [if_neg start]
      refine ⟨[], rfl, nofun, fun off' behind start' _ => ?_⟩
      omega

variable {frame : List Byte}

theorem IsFragment.fits (fragment : IsFragment base msg pad off frame)
    (short : base.cookie.length ≤ 255) : frame.length ≤ datagramMTU := by
  obtain ⟨body, encoded, rfl⟩ := fragment.made
  obtain ⟨body', encoded', length⟩ := encodeDatagramHandshake_ok
    (h := fragmentHeader base msg.length (maxHandshakeFragmentPayload base.cookie.length) off
      ((base.seq + off / maxHandshakeFragmentPayload base.cookie.length) % seqLimit))
    (slice msg off (min (off + maxHandshakeFragmentPayload base.cookie.length) msg.length)) short
  obtain rfl : body' = body := Except.ok.inj (encoded'.symm.trans encoded)
  have small : body'.length ≤ datagramMTU := by
    rw [length, slice_length (Nat.min_le_right _ _)]
    simp only [fragmentHeader, maxHandshakeFragmentPayload, datagramMTU, datagramHeaderSize,
      datagramHandshakeExtSize]
    omega
  unfold padTo
  split
  · rw [List.length_append, List.length_replicate]
    omega
  · exact small

structure Describes (base : DatagramHandshakeHeader Byte) (msg : List Byte) (off : Nat)
    (h : DatagramHandshakeHeader Byte) (fragment : List Byte) : Prop where
  sender : h.senderIndex = base.senderIndex
  msgType : h.msgType = base.msgType
  offset : h.fragOffset.toNat = off
  length : h.fragLength.toNat = fragment.length
  total : h.totalLength.toNat = msg.length
  bytes : fragment =
    slice msg off (min (off + maxHandshakeFragmentPayload base.cookie.length) msg.length)

theorem padTo_append (pad : Bool) (frame : List Byte) :
    ∃ padding, padTo pad frame = frame ++ padding := by
  unfold padTo
  split
  · exact ⟨_, rfl⟩
  · exact ⟨[], (List.append_nil _).symm⟩

theorem IsFragment.parsed (made : IsFragment base msg pad off frame)
    (size : msg.length ≤ datagramMaxHandshakeMessageSize) :
    ∃ h fragment, parseDatagramHandshake frame = .ok (h, fragment) ∧
      Describes base msg off h fragment := by
  obtain ⟨body, encoded, rfl⟩ := made.made
  obtain ⟨padding, padded⟩ := padTo_append pad body
  have start := made.start
  unfold datagramMaxHandshakeMessageSize at size
  have narrow {n : Nat} (small : n ≤ 4096) : (UInt16.ofNat n).toNat = n := by
    simp only [UInt16.toNat_ofNat']
    exact Nat.mod_eq_of_lt (by omega)
  have length : (slice msg off (min (off + maxHandshakeFragmentPayload base.cookie.length)
      msg.length)).length = min (off + maxHandshakeFragmentPayload base.cookie.length) msg.length -
        off := slice_length (Nat.min_le_right _ _)
  have lengths : (UInt16.ofNat (min (off + maxHandshakeFragmentPayload base.cookie.length)
      msg.length - off)).toNat = _ := narrow (by omega)
  have offsets : (UInt16.ofNat off).toNat = off := narrow (by omega)
  have totals : (UInt16.ofNat msg.length).toNat = msg.length := narrow size
  have parsed := parse_encode_handshake (Nat.mod_lt _ (by simp [seqLimit]))
    (length.trans lengths.symm) (by simp only [fragmentHeader, offsets, lengths, totals]; omega)
    encoded padding
  rw [← padded] at parsed
  exact ⟨_, _, parsed, rfl, rfl, offsets, lengths.trans length.symm, totals, rfl⟩

/-- The frames of a message: one at every multiple of the slice size. -/
theorem fragmentHandshake_frames (short : base.cookie.length ≤ 255) (fits : base.seq < seqLimit)
    (some : 1 ≤ msg.length) (size : msg.length ≤ datagramMaxHandshakeMessageSize) :
    ∃ frames, fragmentHandshake base msg pad = .ok frames ∧
      (∀ frame ∈ frames, ∃ off, IsFragment base msg pad off frame) ∧
      ∀ off, off < msg.length → maxHandshakeFragmentPayload base.cookie.length ∣ off →
        ∃ frame ∈ frames, IsFragment base msg pad off frame := by
  have positive := maxHandshakeFragmentPayload_pos short
  obtain ⟨frames, run, sound, complete⟩ := fragmentLoop_makes msg pad short msg.length 0
    (by omega) (dvd_zero _)
  rw [Nat.zero_div, Nat.add_zero, Nat.mod_eq_of_lt fits] at run
  refine ⟨frames, ?_, sound, fun off start aligned => complete off (Nat.zero_le _) start aligned⟩
  rw [fragmentHandshake, if_neg (by omega)]
  dsimp only
  rw [if_neg (by omega), run]

theorem IsFragment.unique {frame' : List Byte} (made : IsFragment base msg pad off frame)
    (made' : IsFragment base msg pad off frame') : frame = frame' := by
  obtain ⟨body, encoded, rfl⟩ := made.made
  obtain ⟨body', encoded', rfl⟩ := made'.made
  rw [Except.ok.inj (encoded.symm.trans encoded')]

theorem IsFragment.offset_unique {off' : Nat} (made : IsFragment base msg pad off frame)
    (made' : IsFragment base msg pad off' frame)
    (size : msg.length ≤ datagramMaxHandshakeMessageSize) : off = off' := by
  obtain ⟨h, fragment, parsed, describes⟩ := made.parsed size
  obtain ⟨h', fragment', parsed', describes'⟩ := made'.parsed size
  cases Except.ok.inj (parsed.symm.trans parsed')
  exact describes.offset.symm.trans describes'.offset

theorem fragmentHandshake_accepts {frames : List (List Byte)}
    (made : fragmentHandshake base msg pad = .ok frames) : base.cookie.length ≤ 255 ∧
      1 ≤ msg.length ∧ msg.length ≤ datagramMaxHandshakeMessageSize := by
  unfold fragmentHandshake at made
  split at made
  · cases made
  · rename_i size
    refine ⟨?_, by omega, by omega⟩
    dsimp only at made
    split at made
    · cases made
    · by_contra long
      -- the first round already fails
      obtain ⟨n, length⟩ : ∃ n, msg.length = n + 1 := ⟨msg.length - 1, by omega⟩
      have fails (total maxFrag off seq : Nat) (fragment : List Byte) :
          encodeDatagramHandshake (fragmentHeader base total maxFrag off seq) fragment =
            .error (.err .invalidMessage) :=
        if_pos (not_le.mp long)
      rw [length, fragmentLoop, if_pos (by omega), fails] at made
      cases made

end Fragments

end Codec

end QuantumGo.HandshakeFrames
