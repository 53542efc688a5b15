import QuantumGo.FinishedHellos

/-!
Dials from one endpoint, and so from one address, to one responder endpoint
(pkg/tunnel/dgram_handshake_wire.go). The responder endpoint is that of HelloDispatch. A dial is
its index, the index that it has learned for its peer and what its machine waits for; what the
machine makes of a message is the event's choice. The network keeps every frame that was sent
and delivers any of them at any time, and never another one.
-/

namespace QuantumGo.ConcurrentDials

open Octets Wire Kem HandshakeFrames Registry Interleaving HelloDispatch
open HalfOpen (Indexes act_indexes)

variable {Byte Addr : Type}

inductive Awaits where
  | serverHello (hrrDone : Bool)
  | serverFinished
  | nothing
  deriving DecidableEq, Repr

/-- A dial from its registration to its removal; `early` is whether a ServerFinished is stashed. -/
structure Dial where
  index : UInt32
  peerIndex : UInt32
  awaits : Awaits
  early : Bool
  registered : Bool
  deriving DecidableEq, Repr

/-- What the machine of a dial makes of a message that it expects; `finish` is for a ServerHello
behind which the stashed ServerFinished is good as well. -/
inductive Verdict where
  | refuse
  | accept
  | finish
  deriving DecidableEq, Repr

def newDial (index : UInt32) : Dial := ⟨index, 0, .serverHello false, false, true⟩

def Dial.cachedFlight (d : Dial) : UInt8 :=
  if d.awaits = .nothing then messageTypeClientFinished else messageTypeClientHello

def Dial.learn (m : Outbound) (d : Dial) : Dial :=
  if m.sender ≠ 0 then { d with peerIndex := m.sender } else d

def Awaits.expects (typ : UInt8) : Awaits → Bool
  | .serverHello hrrDone =>
    typ = messageTypeServerHello ∨ typ = messageTypeHelloRetryRequest ∧ hrrDone = false
  | .serverFinished => typ = messageTypeServerFinished
  | .nothing => false

def Dial.advances (m : Outbound) (verdict : Verdict) (d : Dial) : Bool :=
  verdict ≠ .refuse ∧ d.awaits.expects m.typ

def Dial.onMessage (m : Outbound) (verdict : Verdict) (d : Dial) : Dial :=
  if d.advances m verdict then
    match d.awaits with
    | .serverHello _ =>
      if m.typ = messageTypeServerHello then
        { d with
          awaits := if d.early ∧ verdict = .finish then .nothing else .serverFinished
          early := false }
      else { d with awaits := .serverHello true }
    | .serverFinished | .nothing => { d with awaits := .nothing }
  else if m.typ = messageTypeServerFinished ∧ d.awaits.expects messageTypeServerHello then
    { d with early := true }
  else d

def Dial.hear (m : Outbound) (verdict : Verdict) (d : Dial) : Dial :=
  (d.learn m).onMessage m verdict

/-- `uplink` are the frames of the dials, `advances` the ServerHellos and HelloRetryRequests on
which a dial has advanced. -/
structure Network (Byte Addr : Type) where
  server : World Byte Addr
  dials : List Dial
  uplink : List (List Byte)
  advances : List (Nat × Outbound)

inductive Event (Byte Addr : Type) where
  | dial (index : UInt32)
  | hangUp (k : Nat)
  /-- A dial sends a frame of its cached flight. -/
  | emit (k : Nat) (data : List Byte)
  /-- A frame of a dial reaches the responder endpoint. -/
  | carry (data : List Byte)
  /-- A step of the responder endpoint. -/
  | serve (e : HelloDispatch.Event Byte Addr)
  /-- A message of a responder reaches a dial. -/
  | hear (k : Nat) (m : Outbound) (verdict : Verdict)

section Steps
variable [Octet Byte]

def Dial.owns (data : List Byte) (d : Dial) : Bool :=
  match parseDatagramHandshake data with
  | .ok (h, _) => h.senderIndex = d.index ∧ h.recvIndex = d.peerIndex ∧ h.msgType = d.cachedFlight
  | .error _ => false

def arrival : HelloDispatch.Event Byte Addr → Bool
  | .arrive .. => true
  | _ => false

def perform (env : Env Byte Addr) (addr : Addr) (w : Network Byte Addr) :
    Event Byte Addr → Network Byte Addr
  | .dial index =>
    -- registry.add passes by the reserved index and those in use
    if index = 0 ∨ w.dials.any (fun d => d.registered && d.index = index) then w
    else { w with dials := w.dials ++ [newDial index] }
  | .hangUp k =>
    match w.dials[k]? with
    | some d => { w with dials := w.dials.set k { d with registered := false } }
    | none => w
  | .emit k data =>
    match w.dials[k]? with
    | some d => if d.registered ∧ d.owns data then { w with uplink := w.uplink ++ [data] } else w
    | none => w
  | .carry data =>
    if data ∈ w.uplink then
      { w with server := HelloDispatch.perform env w.server (.arrive addr data) }
    else w
  | .serve e =>
    -- nothing but frames of the dials arrives
    if arrival e then w else { w with server := HelloDispatch.perform env w.server e }
  | .hear k m verdict =>
    match w.dials[k]? with
    | some d =>
      if m ∈ w.server.sent ∧ d.registered ∧ m.recvIndex = d.index then
        { w with
          dials := w.dials.set k (d.hear m verdict)
          advances :=
            if (d.learn m).advances m verdict ∧ m.typ ≠ messageTypeServerFinished then
              w.advances ++ [(k, m)]
            else w.advances }
      else w
    | none => w

def start (option cores : Int) : Network Byte Addr :=
  ⟨HelloDispatch.start option cores, [], [], []⟩

/-- Every ServerHello and HelloRetryRequest on which a dial has advanced answers a hello of that
dial and of no other. -/
def Undisturbed (w : Network Byte Addr) : Prop :=
  ∀ advance ∈ w.advances, ∀ k d, w.dials[k]? = some d →
    (d.index = advance.2.answers ↔ k = advance.1)

end Steps

def heading : Dispatch → Option Nat
  | .routed n => some n
  | _ => none

/-- A hello without an index is put into the inbox of a responder only if that responder was
started by a hello of the same dial. -/
def Matched (w : World Byte Addr) : HelloDispatch.Event Byte Addr → Prop
  | .deliver i => ∀ d ∈ w.deliveries[i]?, ∀ n ∈ heading d.stage, ∀ l ∈ w.loops[n]?,
      d.msg.sender = l.first.sender
  | .act _ (.register draws) => ∀ attempt < maxIndexAllocAttempts, ∀ idx ∈ draws attempt,
      ∀ l ∈ w.loops, l.localIndex ≠ idx
  | _ => True

def Separate (w : Network Byte Addr) : Event Byte Addr → Prop
  | .dial index => ∀ d ∈ w.dials, d.index ≠ index
  | .serve e => Matched w.server e
  | _ => True

/-! Who serves whom. -/

/-- What the network can know of a loop: its role, its index and the dial whose hello started
it. -/
structure Card where
  role : Role
  localIndex : UInt32
  owner : UInt32
  deriving DecidableEq

def card (l : Loop Byte) : Card := ⟨l.role, l.localIndex, l.first.sender⟩

def cards (w : World Byte Addr) : List Card := w.loops.map card

def Serves (cs : List Card) (index owner : UInt32) : Prop := ⟨.responder, index, owner⟩ ∈ cs

def Grows (cs cs' : List Card) : Prop :=
  ∀ (n : Nat) (c : Card), cs[n]? = some c → c.localIndex ≠ 0 → cs'[n]? = some c

theorem Grows.refl (cs : List Card) : Grows cs cs := fun _ _ found _ => found

variable {cs : List Card}

theorem Grows.serves {cs' : List Card} (grows : Grows cs cs') {index owner : UInt32}
    (named : index ≠ 0) (serves : Serves cs index owner) : Serves cs' index owner := by
  obtain ⟨n, found⟩ := List.getElem?_of_mem serves
  exact List.mem_of_getElem? (grows n _ found named)

structure Loyal (l : Loop Byte) : Prop where
  peer : l.peerIndex = l.first.sender
  inbox : ∀ m ∈ l.inbox, m.sender = l.first.sender
  flight : l.phase ≠ .hello → l.answers = l.first.sender

def Addressed (cs : List Card) (h : DatagramHandshakeHeader Byte) : Prop :=
  h.recvIndex ≠ 0 → Serves cs h.recvIndex h.senderIndex

structure Directed (cs : List Card) (d : Delivery Byte) : Prop where
  served : d.recvIndex ≠ 0 → Serves cs d.recvIndex d.msg.sender
  found : ∀ n, d.stage = .found n →
    d.recvIndex ≠ 0 ∧ ∃ c : Card, cs[n]? = some c ∧ c.localIndex = d.recvIndex

structure Returned (cs : List Card) (m : Outbound) : Prop where
  answers : m.recvIndex = m.answers
  served : m.sender ≠ 0 → Serves cs m.sender m.recvIndex

structure Indexed (cs : List Card) (r : ConnRegistry (List Byte)) : Prop where
  unique : ∀ (i j : Nat) (c c' : Card), cs[i]? = some c → cs[j]? = some c' → c.localIndex ≠ 0 →
    c.localIndex = c'.localIndex → i = j
  registry : ∀ index n, lookup index r = some n →
    index ≠ 0 ∧ ∃ c : Card, cs[n]? = some c ∧ c.localIndex = index

variable {d : Delivery Byte}

section Growth
variable {cs' : List Card}

theorem Addressed.grows {h : DatagramHandshakeHeader Byte} (addressed : Addressed cs h)
    (grows : Grows cs cs') : Addressed cs' h :=
  fun named => grows.serves named (addressed named)

theorem Directed.grows (directed : Directed cs d) (grows : Grows cs cs') : Directed cs' d := by
  refine ⟨fun named => grows.serves named (directed.served named), fun n here => ?_⟩
  obtain ⟨named, c, there, index⟩ := directed.found n here
  exact ⟨named, c, grows n c there (by rw [index]; exact named), index⟩

theorem Returned.grows {m : Outbound} (returned : Returned cs m) (grows : Grows cs cs') :
    Returned cs' m :=
  ⟨returned.answers, fun named => grows.serves named (returned.served named)⟩

end Growth

def Framed [Octet Byte] (cs : List Card) (c : Call Byte Addr) : Prop :=
  ∀ h fragment,
    (c.stage.frame = some (h, fragment) ∨ parseDatagramHandshake c.data = .ok (h, fragment)) →
      Addressed cs h

structure Faithful [Octet Byte] (w : World Byte Addr) : Prop where
  loops : ∀ l ∈ w.loops, l.role = .responder → Loyal l
  fresh : ∀ l ∈ w.loops, l.stage = .starting → l.localIndex = 0
  indexed : Indexed (cards w) w.registry
  calls : ∀ c ∈ w.calls, Framed (cards w) c
  deliveries : ∀ d ∈ w.deliveries, Directed (cards w) d
  sent : ∀ m ∈ w.sent, Returned (cards w) m

variable {env : Env Byte Addr} {i : Nat} {l : Loop Byte} {m : InboundMsg Byte}

section Keeping
variable [Octet Byte] {w w' : World Byte Addr}

/-- What was there stays good while the loops keep their cards. -/
theorem Faithful.grown (faithful : Faithful w) (grows : Grows (cards w) (cards w'))
    (indexed : Indexed (cards w') w'.registry) (loops : ∀ l ∈ w'.loops, l ∈ w.loops ∨
      (l.role = .responder → Loyal l) ∧ (l.stage = .starting → l.localIndex = 0))
    (calls : ∀ c ∈ w'.calls, c ∈ w.calls ∨ Framed (cards w') c)
    (deliveries : ∀ d ∈ w'.deliveries, d ∈ w.deliveries ∨ Directed (cards w') d)
    (sent : ∀ m ∈ w'.sent, m ∈ w.sent ∨ Returned (cards w') m) : Faithful w' := by
  refine ⟨fun l member => ?_, fun l member => ?_, indexed, fun c member => ?_, fun d member => ?_,
    fun m member => ?_⟩
  · exact (loops l member).elim (faithful.loops l) And.left
  · exact (loops l member).elim (faithful.fresh l) And.right
  · refine (calls c member).elim (fun old => ?_) id
    exact fun h fragment held => (faithful.calls c old h fragment held).grows grows
  · exact (deliveries d member).elim (fun old => (faithful.deliveries d old).grows grows) id
  · exact (sent m member).elim (fun old => (faithful.sent m old).grows grows) id

theorem Faithful.steady (faithful : Faithful w) (same : cards w' = cards w)
    (registry : ∀ index n, lookup index w'.registry = some n → lookup index w.registry = some n)
    (loops : ∀ l ∈ w'.loops, l ∈ w.loops ∨
      (l.role = .responder → Loyal l) ∧ (l.stage = .starting → l.localIndex = 0))
    (calls : ∀ c ∈ w'.calls, c ∈ w.calls ∨ Framed (cards w) c)
    (deliveries : ∀ d ∈ w'.deliveries, d ∈ w.deliveries ∨ Directed (cards w) d)
    (sent : ∀ m ∈ w'.sent, m ∈ w.sent ∨ Returned (cards w) m) :
    Faithful w' ∧ Grows (cards w) (cards w') := by
  have grows : Grows (cards w) (cards w') := by
    rw [same]
    exact .refl _
  rw [← same] at calls deliveries sent
  refine ⟨faithful.grown grows ⟨?_, ?_⟩ loops calls deliveries sent, grows⟩
  · rw [same]
    exact faithful.indexed.unique
  · rw [same]
    exact fun index n found => faithful.indexed.registry index n (registry index n found)

/-- A loop's step that keeps its card, with what it sends. -/
theorem Faithful.replaces (faithful : Faithful w) {l' : Loop Byte} (found : w.loops[i]? = some l)
    (loops : w'.loops = w.loops.set i l') (same : card l' = card l)
    (loyal : l'.role = .responder → Loyal l') (fresh : l'.stage = .starting → l'.localIndex = 0)
    (registry : ∀ index n, lookup index w'.registry = some n → lookup index w.registry = some n)
    (calls : w'.calls = w.calls)
    (deliveries : ∀ d ∈ w'.deliveries, d ∈ w.deliveries ∨ Directed (cards w) d)
    (sent : ∀ m ∈ w'.sent, m ∈ w.sent ∨ Returned (cards w) m) :
    Faithful w' ∧ Grows (cards w) (cards w') := by
  have kept : cards w' = cards w := by
    unfold cards
    rw [loops]
    exact map_replaced found same
  refine faithful.steady kept registry ?_ ?_ deliveries sent
  · rw [loops]
    exact forall_replaced (fun _ old => .inl old) (.inr ⟨loyal, fresh⟩)
  · rw [calls]
    exact fun _ member => .inl member

theorem Faithful.starts (faithful : Faithful w) (role : Role) (src : List Byte)
    (first : InboundMsg Byte) (loops : w'.loops = w.loops ++ [newLoop role src first])
    (registry : w'.registry.byIndex = w.registry.byIndex) (calls : w'.calls = w.calls)
    (deliveries : ∀ d ∈ w'.deliveries, d ∈ w.deliveries ∨ Directed (cards w) d)
    (sent : w'.sent = w.sent) : Faithful w' ∧ Grows (cards w) (cards w') := by
  have added : cards w' = cards w ++ [⟨role, 0, first.sender⟩] := by
    unfold cards
    rw [loops, List.map_append]
    rfl
  have grows : Grows (cards w) (cards w') := by
    intro n c found _
    rw [added, List.getElem?_append_left (List.getElem?_eq_some_iff.mp found).1]
    exact found
  -- a card with an index is an old one
  have old {n : Nat} {c : Card} (found : (cards w')[n]? = some c) (named : c.localIndex ≠ 0) :
      (cards w)[n]? = some c := by
    rw [added, getElem?_added] at found
    rcases found with before | ⟨-, rfl⟩
    · exact before
    · exact absurd rfl named
  refine ⟨faithful.grown grows ⟨?_, ?_⟩ ?_ ?_ ?_ ?_, grows⟩
  · intro i j c c' here there named same
    exact faithful.indexed.unique i j c c' (old here named) (old there (same ▸ named)) named same
  · intro index n found
    unfold lookup at found
    rw [registry] at found
    obtain ⟨named, c, place, same⟩ := faithful.indexed.registry index n found
    exact ⟨named, c, grows n c place (same ▸ named), same⟩
  · rw [loops]
    refine forall_added (fun _ old => .inl old) (.inr ⟨fun _ => ⟨rfl, ?_, ?_⟩, fun _ => rfl⟩) <;>
      simp [newLoop]
  · intro c member
    rw [calls] at member
    exact .inl member
  · exact fun d member => (deliveries d member).imp_right fun directed => directed.grows grows
  · intro m member
    rw [sent] at member
    exact .inl member

theorem Faithful.registers (faithful : Faithful w) {idx : UInt32} (found : w.loops[i]? = some l)
    (starting : l.stage = .starting) (named : idx ≠ 0)
    (unused : ∀ l ∈ w.loops, l.localIndex ≠ idx) :
    let w' : World Byte Addr := { w with
      registry := { w.registry with byIndex := w.registry.byIndex.insert idx i }
      loops := w.loops.set i { l with localIndex := idx, stage := .running } }
    Faithful w' ∧ Grows (cards w) (cards w') := by
  have blank : l.localIndex = 0 := faithful.fresh l (List.mem_of_getElem? found) starting
  have mine : (cards w)[i]? = some (card l) := by
    unfold cards
    rw [List.getElem?_map, found]
    rfl
  have places (n : Nat) (c : Card) :
      ((cards w).set i { card l with localIndex := idx })[n]? = some c ↔
        n = i ∧ c = { card l with localIndex := idx } ∨ n ≠ i ∧ (cards w)[n]? = some c :=
    getElem?_replaced mine n c
  have others {n : Nat} {c : Card} (place : (cards w)[n]? = some c) : c.localIndex ≠ idx := by
    obtain ⟨l', member, rfl⟩ := List.mem_map.mp (List.mem_of_getElem? place)
    exact unused l' member
  have grows : Grows (cards w) ((cards w).set i { card l with localIndex := idx }) := by
    intro n c place indexed
    refine (places n c).mpr (.inr ⟨fun same => ?_, place⟩)
    subst same
    obtain rfl := Option.some.inj (place.symm.trans mine)
    exact indexed blank
  dsimp only
  have changed : cards ({ w with
      registry := { w.registry with byIndex := w.registry.byIndex.insert idx i }
      loops := w.loops.set i { l with localIndex := idx, stage := .running } } : World Byte Addr) =
      (cards w).set i { card l with localIndex := idx } := List.map_set
  rw [changed]
  refine ⟨faithful.grown (by rw [changed]; exact grows) ?_ ?_ (fun _ member => .inl member)
    (fun _ member => .inl member) (fun _ member => .inl member), grows⟩
  · rw [changed]
    refine ⟨?_, ?_⟩
    · intro n m c c' here there positive same
      rcases (places n c).mp here with ⟨rfl, rfl⟩ | ⟨_, old⟩ <;>
        rcases (places m c').mp there with ⟨rfl, rfl⟩ | ⟨_, old'⟩
      · rfl
      · exact absurd same.symm (others old')
      · exact absurd same (others old)
      · exact faithful.indexed.unique n m c c' old old' positive same
    · intro index n look
      unfold lookup at look
      dsimp only at look
      by_cases same : index = idx
      · subst same
        rw [AList.lookup_insert] at look
        exact ⟨named, _, (places n _).mpr (.inl ⟨(Option.some.inj look).symm, rfl⟩), rfl⟩
      · rw [AList.lookup_insert_ne same] at look
        obtain ⟨positive, c, place, rfl⟩ := faithful.indexed.registry index n look
        exact ⟨positive, c, grows n c place positive, rfl⟩
  · refine forall_replaced (fun _ old => .inl old) (.inr ⟨fun responder => ?_, fun starting => ?_⟩)
    · exact { faithful.loops l (List.mem_of_getElem? found) responder with }
    · cases starting

omit [Octet Byte] in
theorem Loyal.queue (loyal : Loyal l) (sender : m.sender = l.first.sender) : Loyal (l.queue m) := by
  unfold Loop.queue
  split
  · exact { loyal with inbox := forall_added loyal.inbox sender }
  · exact loyal

omit [Octet Byte] in
theorem card_queue (m : InboundMsg Byte) (l : Loop Byte) : card (l.queue m) = card l := by
  unfold Loop.queue
  split <;> rfl

omit [Octet Byte] in
theorem stage_queue (m : InboundMsg Byte) (l : Loop Byte) : (l.queue m).stage = l.stage := by
  unfold Loop.queue
  split <;> rfl

end Keeping

section Messages
variable [Octet Byte]

theorem Loyal.onInbound (loyal : Loyal l) (now : Int) {rest : List (InboundMsg Byte)}
    (inbox : l.inbox = m :: rest) (reply : Reply) :
    Loyal { l.onInbound now m reply with inbox := rest } := by
  have sender : m.sender = l.first.sender := loyal.inbox m (by simp [inbox])
  have behind : ∀ m' ∈ rest, m'.sender = l.first.sender :=
    fun m' member => loyal.inbox m' (by simp [inbox, member])
  have heard : Loyal (l.hear m) := by
    unfold Loop.hear
    split
    · exact ⟨sender, loyal.inbox, loyal.flight⟩
    · exact loyal
  have first : (l.hear m).first = l.first := by
    unfold Loop.hear
    split <;> rfl
  rw [← first] at sender behind
  unfold Loop.onInbound
  generalize l.hear m = l at heard sender behind
  unfold Loop.receive Loop.consume
  -- the machine answers the hello that moves it, and nothing else touches `answers`
  cases phase : l.phase with
  | hello =>
    have stays : Loyal { l with inbox := rest } := ⟨heard.peer, behind, heard.flight⟩
    dsimp only
    split
    · cases reply with
      | refuse => exact stays
      | retry | answer => exact ⟨heard.peer, behind, fun _ => sender⟩
    · exact stays
  | retried firstClientHello =>
    dsimp only
    split
    · exact ⟨heard.peer, behind, fun _ => sender⟩
    · exact ⟨heard.peer, behind, heard.flight⟩
  | flight =>
    have answers : l.answers = l.first.sender := heard.flight (by simp [phase])
    dsimp only
    split
    · exact ⟨heard.peer, behind, fun _ => answers⟩
    · exact ⟨heard.peer, behind, heard.flight⟩
  | complete => exact ⟨heard.peer, behind, heard.flight⟩

theorem card_onInbound (now : Int) (m : InboundMsg Byte) (reply : Reply) (l : Loop Byte) :
    card (l.onInbound now m reply) = card l := by
  obtain ⟨calls, first⟩ := l.onInbound_kept now m reply
  unfold card
  rw [calls, first]

omit [Octet Byte] in
theorem Loyal.sends (loyal : Loyal l) (here : card l ∈ cs) (responder : l.role = .responder)
    {types : List UInt8} (moved : types ≠ [] → l.phase ≠ .hello) :
    ∀ m ∈ l.send types, Returned cs m := by
  intro m member
  unfold Loop.send at member
  obtain ⟨typ, sent, rfl⟩ := List.mem_map.mp member
  have answers := loyal.flight (moved (List.ne_nil_of_mem sent))
  refine ⟨loyal.peer.trans answers.symm, fun _ => ?_⟩
  unfold card at here
  rw [responder, ← loyal.peer] at here
  exact here

/-- The cached flight is empty before the first hello. -/
theorem outbound_moved {reply : Reply} {l' : Loop Byte} (some : l.outbound m reply l' ≠ []) :
    l'.phase ≠ .hello := by
  intro phase
  have none : l'.cachedFlight = [] := by
    unfold Loop.cachedFlight
    rw [phase]
  refine some ?_
  unfold Loop.outbound
  rw [none]
  split
  · rfl
  · split
    · exact ite_self _
    all_goals rfl

end Messages

variable {e : HelloDispatch.Event Byte Addr}

section Serving
variable [Octet Byte] {w : World Byte Addr}

/-- A message for the inbox of a loop, which only its dial has sent. -/
theorem Faithful.queues (faithful : Faithful w) {n : Nat} {stage : Dispatch}
    (found : w.deliveries[i]? = some d) (there : w.loops[n]? = some l)
    (here : d.stage = .found n ∨ d.stage = .routed n) (unfound : ∀ n, stage ≠ .found n)
    (matched : Matched w (.deliver i)) :
    let w' : World Byte Addr := { w with
      loops := w.loops.set n (l.queue d.msg), deliveries := w.deliveries.set i { d with stage } }
    Faithful w' ∧ Grows (cards w) (cards w') := by
  have directed := faithful.deliveries d (List.mem_of_getElem? found)
  refine faithful.replaces there rfl (card_queue d.msg l) (fun responder => ?_)
    (fun starting => ?_) (fun _ _ same => same) rfl ?_ fun _ member => .inl member
  · have loyal := faithful.loops l (List.mem_of_getElem? there)
      ((l.queue_same d.msg).role.symm.trans responder)
    refine loyal.queue ?_
    rcases here with here | here
    · -- the session has the frame's index, which serves the sender
      obtain ⟨named, c, place, index⟩ := directed.found n here
      obtain ⟨j, place'⟩ := List.getElem?_of_mem (directed.served named)
      have same := faithful.indexed.unique j n _ c place' place named index.symm
      subst same
      have mine : (cards w)[j]? = some (card l) := by
        unfold cards
        rw [List.getElem?_map, there]
        rfl
      exact congrArg Card.owner (Option.some.inj (place'.symm.trans mine))
    · exact matched d found n (by rw [here]; rfl) l there
  · rw [stage_queue] at starting
    have index := congrArg Card.localIndex (card_queue d.msg l)
    exact index.trans (faithful.fresh l (List.mem_of_getElem? there) starting)
  · exact forall_replaced (fun _ old => .inl old)
      (.inr ⟨directed.served, fun n same => absurd same (unfound n)⟩)

/-- A receive call hands its frame's indices on. -/
theorem Faithful.call (faithful : Faithful w) {now : Int64} {meeting : Reassembly.Meeting}
    {c c' : Call Byte Addr} {after : World Byte Addr} (found : w.calls[i]? = some c)
    (routes : Routes env i now meeting c w c' after) :
    Faithful { after with calls := w.calls.set i c' } ∧
      Grows (cards w) (cards { after with calls := w.calls.set i c' }) := by
  have framed := faithful.calls c (List.mem_of_getElem? found)
  have moves {stage : Gate Byte} (held : ∀ frame, stage.frame = some frame →
      c.stage.frame = some frame ∨ parseDatagramHandshake c.data = .ok frame) :
      ∀ other ∈ w.calls.set i { c with stage }, other ∈ w.calls ∨ Framed (cards w) other :=
    forall_replaced (fun _ old => .inl old)
      (.inr fun h fragment frame => framed h fragment (frame.elim (held (h, fragment)) .inr))
  have same {index : UInt32} {n : Nat} (look : lookup index w.registry = some n) :
      lookup index w.registry = some n := look
  cases routes with
  | waits stage held =>
    exact faithful.steady rfl (fun _ _ => same) (fun _ member => .inl member) (moves held)
      (fun _ member => .inl member) fun _ member => .inl member
  | verifies h fragment here =>
    refine faithful.steady rfl (fun _ _ => same) (fun _ member => .inl member)
      (moves fun frame held => .inl ?_) (fun _ member => .inl member) fun _ member => .inl member
    rw [here]
    exact held
  | challenges h fragment here =>
    exact faithful.steady rfl (fun _ _ => same) (fun _ member => .inl member)
      (moves fun frame held => by cases held) (fun _ member => .inl member)
      fun _ member => .inl member
  | reassembles h fragment here =>
    obtain ⟨reasm, deliveries, after, new⟩ := reassemble_outside env meeting c h fragment w
    rw [after]
    refine faithful.steady rfl (fun _ _ => same) (fun _ member => .inl member)
      (moves fun frame held => by cases held) (fun d member => ?_) fun _ member => .inl member
    refine (new d member).imp_right ?_
    rintro ⟨entered, index, sender⟩
    have addressed := framed h fragment (.inl (by rw [here]; rfl))
    refine ⟨fun named => ?_, fun n searched => by cases entered.symm.trans searched⟩
    rw [index, sender]
    exact addressed (by rw [← index]; exact named)

theorem Faithful.delivers (faithful : Faithful w) (matched : Matched w (.deliver i))
    {stage : Dispatch} {after : World Byte Addr} (found : w.deliveries[i]? = some d)
    (dispatches : Dispatches env d w stage after) :
    Faithful { after with deliveries := w.deliveries.set i { d with stage } } ∧
      Grows (cards w) (cards { after with deliveries := w.deliveries.set i { d with stage } }) := by
  have directed := faithful.deliveries d (List.mem_of_getElem? found)
  have moves {stage : Dispatch} (searched : ∀ n, stage = .found n → d.recvIndex ≠ 0 ∧
      ∃ c : Card, (cards w)[n]? = some c ∧ c.localIndex = d.recvIndex) :
      ∀ other ∈ w.deliveries.set i { d with stage },
        other ∈ w.deliveries ∨ Directed (cards w) other :=
    forall_replaced (fun _ old => .inl old) (.inr ⟨directed.served, searched⟩)
  cases dispatches with
  | waits _ unchecked searched =>
    refine faithful.steady rfl (fun _ _ look => look) (fun _ member => .inl member)
      (fun _ member => .inl member) (moves fun n here => ?_) fun _ member => .inl member
    obtain ⟨named, look⟩ := searched n here
    exact ⟨named, (faithful.indexed.registry _ n look).2⟩
  | checks answer recent =>
    refine faithful.steady rfl (fun _ _ look => look) (fun _ member => .inl member)
      (fun _ member => .inl member) (moves fun n here => ?_) fun _ member => .inl member
    cases answer <;> cases here
  | queues n l _ there unchecked here unfound =>
    exact faithful.queues found there here unfound matched
  | starts registry checked entries indices =>
    exact faithful.starts .responder d.src d.msg rfl indices rfl (moves (by simp)) rfl

theorem Faithful.step (faithful : Faithful w) (matched : Matched w e)
    (addressed : ∀ src data, e = .arrive src data → ∀ h fragment,
      parseDatagramHandshake data = .ok (h, fragment) → Addressed (cards w) h) :
    Faithful (HelloDispatch.perform env w e) ∧
      Grows (cards w) (cards (HelloDispatch.perform env w e)) := by
  have loyal {i : Nat} {l : Loop Byte} (found : w.loops[i]? = some l)
      (responder : l.role = .responder) : Loyal l :=
    faithful.loops l (List.mem_of_getElem? found) responder
  have fresh {i : Nat} {l : Loop Byte} (found : w.loops[i]? = some l)
      (starting : l.stage = .starting) : l.localIndex = 0 :=
    faithful.fresh l (List.mem_of_getElem? found) starting
  have performs := perform_performs env w e
  generalize HelloDispatch.perform env w e = w' at performs ⊢
  cases performs with
  | idle => exact ⟨faithful, .refl _⟩
  | ticks | closes => exact ⟨{ faithful with }, .refl _⟩
  | arrives src data =>
    refine faithful.steady rfl (fun _ _ look => look) (fun _ member => .inl member)
      (forall_added (fun _ old => .inl old) (.inr fun h fragment held => ?_))
      (fun _ member => .inl member) fun _ member => .inl member
    rcases held with held | parsed
    · cases held
    · exact addressed src data rfl h fragment parsed
  | calls _ _ _ _ _ _ found routes => exact faithful.call found routes
  | delivers _ _ _ _ found dispatches => exact faithful.delivers matched found dispatches
  | dials dst =>
    exact faithful.starts .initiator dst _ rfl rfl rfl (fun _ member => .inl member) rfl
  | acts i action l found =>
    have indexes := act_indexes i l.toLoop w.registry action
    have same := act_same i l w.registry action
    rcases ran : HalfOpen.act i l.toLoop w.registry action with ⟨moved, registry⟩
    rw [ran] at indexes same
    dsimp only at indexes same ⊢
    cases indexes with
    | keeps _ _ _ index starting fewer | removes _ _ index starting fewer =>
      refine faithful.replaces found rfl ?_ (fun responder => ?_) (fun unnamed => ?_) fewer rfl
        (fun _ member => .inl member) fun _ member => .inl member
      · unfold card
        rw [same.role, index]
      · exact { loyal found (same.role.symm.trans responder) with }
      · exact index.trans (fresh found (starting unnamed))
    | registers draws attempt idx starting below drawn positive =>
      exact faithful.registers found starting positive (matched attempt below idx drawn)
  | begins i l found responder running =>
    refine faithful.replaces found rfl (card_queue l.first l) (fun _ => ?_) (fun starting => ?_)
      (fun _ _ look => look) rfl (fun _ member => .inl member) fun _ member => .inl member
    · exact { (loyal found responder).queue (m := l.first) rfl with }
    · cases (starting.symm.trans (stage_queue l.first l)).trans running
  | takes i reply l _ m rest found serving inbox moved =>
    have responder : l.role = .responder := (of_decide_eq_true serving).1
    have taken := (loyal found responder).onInbound w.clock inbox reply
    have same := card_onInbound w.clock m reply l
    have calls := (l.onInbound_kept w.clock m reply).1
    subst moved
    refine faithful.replaces found rfl same (fun _ => taken) (fun starting => ?_)
      (fun _ _ look => look) rfl (fun _ member => .inl member) fun m' member => ?_
    · dsimp only at starting ⊢
      rw [calls] at starting ⊢
      exact fresh found starting
    · refine (List.mem_append.mp member).imp_right ?_
      refine taken.sends ?_ ?_ outbound_moved m'
      · have member : card l ∈ cards w := List.mem_map_of_mem (List.mem_of_getElem? found)
        rw [← same] at member
        exact member
      · exact (congrArg Card.role same).trans responder
  | times i l found serving =>
    have responder : l.role = .responder := (of_decide_eq_true serving).1
    refine faithful.steady rfl (fun _ _ look => look) (fun _ member => .inl member)
      (fun _ member => .inl member) (fun _ member => .inl member) fun m member => ?_
    refine (List.mem_append.mp member).imp_right ?_
    refine (loyal found responder).sends ?_ responder ?_ m
    · exact List.mem_map_of_mem (List.mem_of_getElem? found)
    · intro some phase
      unfold Loop.cachedFlight at some
      rw [phase] at some
      exact some rfl
  | notes i l found =>
    exact faithful.replaces found rfl rfl (fun responder => { loyal found responder with })
      (fresh (l := l) found) (fun _ _ look => look) rfl (fun _ member => .inl member)
      fun _ member => .inl member
  | redelivers i l m rest found _ inbox deliveries new =>
    refine faithful.replaces found rfl rfl (fun responder => ?_)
      (fresh (l := l) found) (fun _ _ look => look) rfl
      (fun d member => (new d member).imp_right ?_) fun _ member => .inl member
    · have before := loyal found responder
      exact { before with
        inbox := fun m' behind => before.inbox m' (by simp [inbox, behind]) }
    · rintro rfl
      exact ⟨fun named => absurd rfl named, fun n here => by cases here⟩

end Serving

/-! The network. -/

theorem onMessage_kept (m : Outbound) (verdict : Verdict) (d : Dial) :
    (d.onMessage m verdict).index = d.index ∧ (d.onMessage m verdict).peerIndex = d.peerIndex := by
  unfold Dial.onMessage
  split
  · split
    · split <;> exact ⟨rfl, rfl⟩
    all_goals exact ⟨rfl, rfl⟩
  · split <;> exact ⟨rfl, rfl⟩

theorem hear_index (m : Outbound) (verdict : Verdict) (d : Dial) :
    (d.hear m verdict).index = d.index := by
  refine (onMessage_kept m verdict _).1.trans ?_
  unfold Dial.learn
  split <;> rfl

theorem hear_peerIndex (m : Outbound) (verdict : Verdict) (d : Dial) :
    (d.hear m verdict).peerIndex = if m.sender ≠ 0 then m.sender else d.peerIndex := by
  refine (onMessage_kept m verdict _).2.trans ?_
  unfold Dial.learn
  split <;> rfl

section Apart
variable [Octet Byte] {addr : Addr} {w w' : Network Byte Addr}

def indices (w : Network Byte Addr) : List UInt32 := w.dials.map Dial.index

structure Apart (w : Network Byte Addr) : Prop where
  server : Faithful w.server
  uplink : ∀ data ∈ w.uplink, ∀ h fragment, parseDatagramHandshake data = .ok (h, fragment) →
    Addressed (cards w.server) h
  dials : ∀ d ∈ w.dials, d.peerIndex ≠ 0 → Serves (cards w.server) d.peerIndex d.index
  unique : (indices w).Nodup
  advances : ∀ advance ∈ w.advances, (indices w)[advance.1]? = some advance.2.answers

theorem Apart.serves (apart : Apart w) (matched : Matched w.server e)
    (addressed : ∀ src data, e = .arrive src data → ∀ h fragment,
      parseDatagramHandshake data = .ok (h, fragment) → Addressed (cards w.server) h) :
    Apart { w with server := HelloDispatch.perform env w.server e } := by
  obtain ⟨faithful, grows⟩ : Faithful (HelloDispatch.perform env w.server e) ∧
      Grows (cards w.server) (cards (HelloDispatch.perform env w.server e)) :=
    apart.server.step matched addressed
  refine ⟨faithful, ?_, ?_, apart.unique, apart.advances⟩
  · exact fun data member h fragment parsed =>
      (apart.uplink data member h fragment parsed).grows grows
  · exact fun d member named => grows.serves named (apart.dials d member named)

theorem Apart.replaces (apart : Apart w) {k : Nat} {d d' : Dial} (found : w.dials[k]? = some d)
    (index : d'.index = d.index)
    (peer : d'.peerIndex ≠ 0 → Serves (cards w.server) d'.peerIndex d'.index)
    {advances : List (Nat × Outbound)} (new : ∀ advance ∈ advances, advance ∈ w.advances ∨
      advance.1 = k ∧ advance.2.answers = d.index) :
    Apart { w with dials := w.dials.set k d', advances } := by
  have same : (w.dials.set k d').map Dial.index = indices w := map_replaced found index
  refine ⟨apart.server, apart.uplink, forall_replaced apart.dials peer, ?_,
    fun advance member => ?_⟩
  · unfold indices
    rw [same]
    exact apart.unique
  · unfold indices
    rw [same]
    rcases new advance member with old | ⟨here, answers⟩
    · exact apart.advances advance old
    · unfold indices
      rw [here, answers, List.getElem?_map, found]
      rfl

theorem Apart.step (apart : Apart w) {e : Event Byte Addr} (separate : Separate w e) :
    Apart (perform env addr w e) := by
  cases e with
  | dial index =>
    rw [perform]
    split
    · exact apart
    refine ⟨apart.server, apart.uplink, forall_added apart.dials fun named => absurd rfl named, ?_,
      fun advance member => ?_⟩
    · have unused : index ∉ indices w := by
        intro member
        obtain ⟨d, there, same⟩ := List.mem_map.mp member
        exact separate d there same
      unfold indices
      rw [List.map_append]
      refine List.nodup_append.mpr ⟨apart.unique, by simp, ?_⟩
      rintro other there _ new rfl
      obtain rfl := List.mem_singleton.mp new
      exact unused there
    · have place := apart.advances advance member
      unfold indices at place ⊢
      rw [List.map_append, List.getElem?_append_left (List.getElem?_eq_some_iff.mp place).1]
      exact place
  | hangUp k =>
    rw [perform]
    split
    · rename_i d found
      refine apart.replaces found ?_ ?_ fun _ member => .inl member
      · rfl
      · exact apart.dials d (List.mem_of_getElem? found)
    · exact apart
  | emit k data =>
    rw [perform]
    split
    · rename_i d found
      split
      · rename_i owned
        refine { apart with uplink := forall_added apart.uplink fun h fragment parsed named => ?_ }
        have fields := owned.2
        unfold Dial.owns at fields
        rw [parsed] at fields
        obtain ⟨sender, recv, -⟩ := of_decide_eq_true fields
        rw [recv, sender]
        rw [recv] at named
        exact apart.dials d (List.mem_of_getElem? found) named
      · exact apart
    · exact apart
  | carry data =>
    rw [perform]
    split
    · rename_i member
      refine apart.serves trivial fun src data' same h fragment parsed => ?_
      obtain ⟨-, rfl⟩ := HelloDispatch.Event.arrive.inj same
      exact apart.uplink data member h fragment parsed
    · exact apart
  | serve e =>
    rw [perform]
    split
    · exact apart
    · rename_i other
      refine apart.serves separate fun src data same => ?_
      subst same
      exact absurd rfl other
  | hear k m verdict =>
    rw [perform]
    split
    · rename_i d found
      split
      · rename_i heard
        obtain ⟨sent, -, index⟩ := heard
        have returned := apart.server.sent m sent
        refine apart.replaces found (hear_index m verdict d) (fun named => ?_)
          fun advance member => ?_
        · rw [hear_peerIndex] at named ⊢
          rw [hear_index]
          split at named
          · rename_i sender
            rw [if_pos sender, ← index]
            exact returned.served sender
          · rename_i sender
            rw [if_neg sender]
            exact apart.dials d (List.mem_of_getElem? found) named
        · split at member
          · refine (List.mem_append.mp member).imp_right fun new => ?_
            obtain rfl := List.mem_singleton.mp new
            exact ⟨rfl, returned.answers.symm.trans index⟩
          · exact .inl member
      · exact apart
    · exact apart

theorem apart_run {option cores : Int} {events : List (Event Byte Addr)}
    (separate : Along (perform env addr) Separate events (start option cores)) :
    Apart (run (perform env addr) events (start option cores)) := by
  refine invariant_run (fun w e separate apart => apart.step separate) separate ?_
  refine ⟨⟨?_, ?_, ⟨?_, ?_⟩, ?_, ?_, ?_⟩, ?_, ?_, ?_, ?_⟩
  all_goals
    simp [start, HelloDispatch.start, cards, indices, newConnRegistry, lookup]

end Apart

/-- In every run in which hellos reach only responders of their own dial and no index is drawn
twice, no dial advances on an answer to another one's hello. -/
theorem dials_undisturbed [Octet Byte] (env : Env Byte Addr) (addr : Addr) (option cores : Int)
    (events : List (Event Byte Addr))
    (separate : Along (perform env addr) Separate events (start option cores)) :
    Undisturbed (run (perform env addr) events (start option cores)) := by
  have apart := apart_run separate
  intro advance member k d found
  have place := apart.advances advance member
  have here : (indices (run (perform env addr) events (start option cores)))[k]? =
      some d.index := by
    unfold indices
    rw [List.getElem?_map, found]
    rfl
  refine ⟨fun same => ?_, fun same => ?_⟩
  · rw [same] at here
    exact (List.getElem?_inj (List.getElem?_eq_some_iff.mp here).1 apart.unique).mp
      (here.trans place.symm)
  · rw [same] at here
    exact Option.some.inj (here.symm.trans place)

/-! Two dials from one address, with the indices 7 and 8 and the hellos `[1]` and `[2]`. The
responder takes index 9. -/

section Samples
open Symbolic

/-- A frame of dial `k` is the one that call `n` of the responder endpoint receives. -/
def brings (k n : Nat) (data : List Letter) : List (Event Letter Nat) :=
  [.emit k data, .carry data] ++ List.replicate 4 (.serve (.call n 0 ⟨0, 0, ⟨0, 0⟩⟩)) ++
    [.serve (.deliver n), .serve (.deliver n)]

def answered (i : Nat) (index : UInt32) : List (Event Letter Nat) :=
  [.serve (.act i (.register fun _ => some index)), .serve (.begin i), .serve (.take i .answer)]

def firstDial : List (Event Letter Nat) :=
  .dial 7 :: brings 0 0 (sampleFrame 0 7 messageTypeClientHello 1) ++ answered 0 9 ++
    [.hear 0 ⟨9, 7, messageTypeServerHello, 7⟩ .accept]

def secondDial : List (Event Letter Nat) :=
  .dial 8 :: brings 1 1 (sampleFrame 0 8 messageTypeClientHello 2) ++
    [.serve (.deliver 1), .serve (.take 0 .refuse),
      .hear 1 ⟨9, 8, messageTypeServerHello, 7⟩ .accept]

/-- The hello of the second dial is held up until the first responder is established, and another
one, with index 10, answers it. -/
def heldUp : List (Event Letter Nat) :=
  firstDial ++ .dial 8 :: .hear 0 ⟨9, 7, messageTypeServerFinished, 7⟩ .accept ::
    brings 0 1 (sampleFrame 9 7 messageTypeClientFinished 3) ++
    [.serve (.take 0 .answer), .serve (.act 0 .establish), .serve (.act 0 .call),
      .serve (.act 0 .call)] ++
    brings 1 2 (sampleFrame 0 8 messageTypeClientHello 2) ++ answered 1 10 ++
    [.hear 1 ⟨10, 8, messageTypeServerHello, 8⟩ .accept]

def after (events : List (Event Letter Nat)) : Network Letter Nat :=
  run (perform (sampleEnv 512) 5) events (start 1024 1)

instance (w : World Byte Addr) (e : HelloDispatch.Event Byte Addr) : Decidable (Matched w e) :=
  match e with
  | .deliver i => inferInstanceAs (Decidable (∀ d ∈ w.deliveries[i]?, _))
  | .act _ (.register _) => @Nat.decidableBallLT _ _ fun _ _ => Option.decidableForallMem _
  | .act _ .newSessionFails | .act _ .startFails | .act _ .establish | .act _ .fail | .act _ .call
  | .act _ .teardown | .tick _ | .close | .arrive .. | .call .. | .dial _ | .begin _ | .take ..
  | .timeout _ | .note _ | .redeliver _ => .isTrue trivial

instance (w : Network Byte Addr) (e : Event Byte Addr) : Decidable (Separate w e) :=
  match e with
  | .dial _ => inferInstanceAs (Decidable (∀ d ∈ w.dials, _))
  | .serve e => inferInstanceAs (Decidable (Matched w.server e))
  | .hangUp _ | .emit .. | .carry _ | .hear .. => .isTrue trivial

theorem dials_undisturbed_both : (after heldUp).advances =
        [(0, ⟨9, 7, messageTypeServerHello, 7⟩), (1, ⟨10, 8, messageTypeServerHello, 8⟩)] ∧
      Undisturbed (after heldUp) := by
  refine ⟨by decide +kernel, dials_undisturbed (sampleEnv 512) 5 1024 1 heldUp ?_⟩
  decide +kernel

/-- The second dial has advanced on the ServerHello that answers the hello of the first. -/
theorem dials_disturbed :
    (after (firstDial ++ secondDial)).dials.map (fun d => (d.index, d.awaits)) =
      [(7, .serverFinished), (8, .serverFinished)] ∧
    (after (firstDial ++ secondDial)).advances =
      [(0, ⟨9, 7, messageTypeServerHello, 7⟩), (1, ⟨9, 8, messageTypeServerHello, 7⟩)] ∧
    ¬ Undisturbed (after (firstDial ++ secondDial)) := by
  have advances : (after (firstDial ++ secondDial)).advances =
      [(0, ⟨9, 7, messageTypeServerHello, 7⟩), (1, ⟨9, 8, messageTypeServerHello, 7⟩)] := by
    decide +kernel
  refine ⟨by decide +kernel, advances, fun undisturbed => ?_⟩
  have first : (after (firstDial ++ secondDial)).dials[0]? =
      some ⟨7, 9, .serverFinished, false, true⟩ := by decide +kernel
  have same := undisturbed (1, ⟨9, 8, messageTypeServerHello, 7⟩) (by simp [advances]) 0 _ first
  cases same.mp rfl

end Samples

end QuantumGo.ConcurrentDials
