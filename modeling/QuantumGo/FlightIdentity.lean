import QuantumGo.DatagramDriver
import QuantumGo.MachineSteps
import Mathlib.Data.Finset.Card

/-!
The flights of a datagram handshake machine (pkg/tunnel/dgram_handshake_fsm.go) over a whole run.
The builders draw fresh randomness on every call, so a machine repeats a flight only by keeping
it. Whatever it is sent, the messages of one type that it emits are one message, except that an
initiator may be made to send a second ClientHello. It builds one Finished at most, also when a
transition stops after the Finished was sealed.
-/

namespace QuantumGo.FlightIdentity

open Octets Effect Symbolic Wire Tunnel Flights BuilderFrames FlightSpecs
open ResponderSpecs DatagramHandshake DroppedMessages MachineSteps
open StreamAgreement (steadyCoins)

variable {Byte : Type} [Octet Byte]

inductive Runs (env : Env Byte) (session : Session Byte) :
    List (HsMessage Byte) → DgramHandshake Byte → Prop where
  | new : Runs env session [] (newDgramHandshake session)
  | started {coins : Coins Byte} {out : List (HsMessage Byte)} {d : DgramHandshake Byte}
      (role : session.role = .initiator)
      (ran : start env coins (newDgramHandshake session) = (.ok out, d)) :
      Runs env session out d
  | message {log : List (HsMessage Byte)} {d d' : DgramHandshake Byte} {reaction : Reaction Byte}
      (coins : Coins Byte) (typ : UInt8) (body : List Byte) (run : Runs env session log d)
      (ran : onMessage env coins typ body d = (.ok reaction, d')) :
      Runs env session (log ++ reaction.1) d'

def emitted (typ : UInt8) (log : List (HsMessage Byte)) : Finset (List Byte) :=
  ((log.filter (·.typ = typ)).map (·.body)).toFinset

variable {log out : List (HsMessage Byte)}

section Emitted
variable {typ other : UInt8} {body : List Byte}

theorem mem_emitted : body ∈ emitted typ log ↔ ⟨typ, body⟩ ∈ log := by
  simp only [emitted, List.mem_toFinset, List.mem_map, List.mem_filter, decide_eq_true_eq]
  constructor
  · rintro ⟨m, ⟨mem, rfl⟩, rfl⟩
    exact mem
  · exact fun mem => ⟨⟨typ, body⟩, ⟨mem, rfl⟩, rfl⟩

theorem emitted_repeats (repeats : ∀ m ∈ out, m ∈ log) :
    emitted typ (log ++ out) = emitted typ log := by
  ext body
  rw [mem_emitted, mem_emitted, List.mem_append]
  exact ⟨fun either => either.elim id (repeats _), .inl⟩

theorem emitted_other (differs : typ ≠ other) :
    emitted typ (log ++ [⟨other, body⟩]) = emitted typ log := by
  ext seen
  simp [mem_emitted, differs]

theorem emitted_same : emitted typ (log ++ [⟨typ, body⟩]) = insert body (emitted typ log) := by
  ext seen
  simp [mem_emitted, or_comm]

def allowance (typ : UInt8) : Nat := if typ = messageTypeClientHello then 2 else 1

def Capped (log : List (HsMessage Byte)) : Prop := ∀ typ, (emitted typ log).card ≤ allowance typ

theorem Capped.repeats (capped : Capped log) (repeats : ∀ m ∈ out, m ∈ log) :
    Capped (log ++ out) := by
  intro typ
  rw [emitted_repeats repeats]
  exact capped typ

theorem Capped.adds (capped : Capped log) (body : List Byte)
    (room : (emitted typ log).card < allowance typ) : Capped (log ++ [⟨typ, body⟩]) := by
  intro seen
  by_cases same : seen = typ
  · subst same
    rw [emitted_same]
    exact (Finset.card_insert_le _ _).trans room
  · rw [emitted_other same]
    exact capped seen

/-- A type that was not emitted yet has room. -/
theorem allowance_unused (unused : emitted typ log = ∅) :
    (emitted typ log).card < allowance typ := by
  rw [unused, Finset.card_empty, allowance]
  split <;> omega

end Emitted

def Sealed (h : Handshake Byte) (past : Prop) : Prop :=
  h.sealed.length ≤ 1 ∧ (h.sealed = [] ∨ past)

omit [Octet Byte] in
theorem Sealed.unsealed {h : Handshake Byte} {past : Prop} (none : h.sealed = []) : Sealed h past :=
  ⟨none ▸ Nat.zero_le 1, .inl none⟩

variable {env : Env Byte} {coins : Coins Byte} {typ : UInt8} {body : List Byte}
  {reaction : Reaction Byte} {d d' : DgramHandshake Byte}

structure Leading (log : List (HsMessage Byte)) (d : DgramHandshake Byte) : Prop where
  leads : d.role = .initiator
  unasked : d.expecting ≠ messageTypeHelloRetryRequest
  cached : ∀ m ∈ d.cached, m ∈ log
  capped : Capped log
  first : d.expecting = messageTypeServerHello → d.hs.hrrDone = false →
    (emitted messageTypeClientHello log).card ≤ 1
  unfinished : d.expecting ≠ 0 → emitted messageTypeClientFinished log = ∅
  once : Sealed d.hs (d.expecting ≠ messageTypeServerHello ∧ d.hs.state ≠ .serverHelloReceived)

section Lead
variable (leading : Leading log d)
include leading

theorem Leading.repeats (repeats : ∀ m ∈ out, m ∈ log) : Leading (log ++ out) d := { leading with
    cached := fun m mem => List.mem_append_left _ (leading.cached m mem)
    capped := leading.capped.repeats repeats
    first := fun expects first => by
      rw [emitted_repeats repeats]
      exact leading.first expects first
    unfinished := fun open' => by
      rw [emitted_repeats repeats]
      exact leading.unfinished open' }

/-- While the ServerHello is awaited, no Finished was built. -/
theorem Leading.unsealed (expects : d.expecting = messageTypeServerHello) : d.hs.sealed = [] :=
  leading.once.2.resolve_right fun past => past.1 expects

theorem Leading.heard (expects : d.expecting = messageTypeServerHello) {h : Handshake Byte}
    (processed : processServerHello env body d.hs = (.ok (), h)) : Leading log (heard d h) where
  leads := leading.leads
  unasked := show messageTypeServerFinished ≠ _ by decide
  cached := leading.cached
  capped := leading.capped
  first := fun again => absurd (show messageTypeServerFinished = _ from again) (by decide)
  unfinished := fun _ => leading.unfinished (by rw [expects]; decide)
  once := by
    obtain ⟨-, _, _, _, _, _, _, _, -, -, -, -, -, -, -, -, -, rfl⟩ :=
      processServerHello_ok_iff.mp processed
    exact .unsealed (leading.unsealed expects)

/-- The step lemma for a ServerFinished. -/
theorem Leading.closes (expects : d.expecting = messageTypeServerFinished)
    (closes : Closes env coins body d reaction d') : Leading (log ++ reaction.1) d' := by
  -- a ServerFinished is accepted in one state only, which building the reply leaves
  have unsealed {received : Handshake Byte}
      (processed : processServerFinished env body d.hs = (.ok (), received)) : d.hs.sealed = [] :=
    leading.once.2.resolve_right fun past => past.2 (processServerFinished_ok_iff.mp processed).1
  cases closes with
  | refuses =>
    simpa using leading
  | fails received h processed spent few =>
    rw [unsealed processed] at few
    rw [List.append_nil]
    exact { leading with
      first := fun hello => absurd (expects.symm.trans hello) (by decide)
      once := ⟨few, .inr ⟨by rw [expects]; decide, spent⟩⟩ }
  | completes received final reply processed created =>
    have none := unsealed processed
    have few : (createClientFinished env coins received).2.sealed.length ≤ _ :=
      createClientFinished_seals received
    rw [created] at few
    obtain ⟨-, _, _, _, -, -, -, -, rfl⟩ := processServerFinished_ok_iff.mp processed
    rw [show (finishedBy _ _ _).sealed = [] from none] at few
    have unused := leading.unfinished (by rw [expects]; decide)
    refine ⟨leading.leads, show 0 ≠ messageTypeHelloRetryRequest by decide,
      fun m mem => List.mem_append_right _ mem, leading.capped.adds reply (allowance_unused unused),
      fun hello => absurd (show 0 = messageTypeServerHello from hello) (by decide),
      fun open' => absurd rfl open', few, .inr ⟨show 0 ≠ messageTypeServerHello by decide, ?_⟩⟩
    obtain ⟨-, _, _, _, _, _, -, -, -, -, -, -, -, -, rfl⟩ := createClientFinished_ok_iff.mp created
    simp [completed]

/-- The step lemma for an initiator. -/
theorem Leading.initiates (initiates : Initiates env coins typ body d reaction d') :
    Leading (log ++ reaction.1) d' := by
  cases initiates with
  | rests out repeats =>
    refine leading.repeats fun m mem => ?_
    rcases repeats with rfl | rfl
    · cases mem
    · exact leading.cached m mem
  | stashes finished early =>
    rw [List.append_nil]
    exact { leading with }
  | loses h expects asked kept =>
    rw [List.append_nil]
    exact { leading with
      first := fun _ first => leading.first expects (Bool.eq_false_iff.mpr fun done =>
        absurd (asked done) (Bool.eq_false_iff.mp first))
      once := .unsealed (kept.trans (leading.unsealed expects)) }
  | retries h h' reply asked expects processed created =>
    have kept : (marks (createClientHello env coins h).2).2 = (marks h).2 :=
      createClientHello_moves.rest h
    rw [created] at kept
    obtain ⟨-, first, _, _, _, _, -, -, -, -, -, rfl⟩ :=
      processHelloRetryRequest_ok_iff.mp processed
    have retried : h'.hrrDone = true := congrArg Prod.fst kept
    have unsealed : h'.sealed = [] :=
      (congrArg (fun seen => seen.2.2.1) kept).trans (leading.unsealed expects)
    have room := leading.first expects first
    refine ⟨leading.leads, show messageTypeServerHello ≠ messageTypeHelloRetryRequest by decide,
      fun m mem => List.mem_append_right _ mem,
      leading.capped.adds reply (show _ < 2 by omega),
      fun _ again => absurd retried (Bool.eq_false_iff.mp again), fun _ => ?_, .unsealed unsealed⟩
    rw [emitted_other (by decide)]
    exact leading.unfinished (by rw [expects]; decide)
  | hears h hello expects processed =>
    simpa using leading.heard expects processed
  | catchesUp h early hello expects processed stashed closes =>
    exact (leading.heard expects processed).closes rfl closes
  | finishes finished expects closes => exact leading.closes expects closes

end Lead

structure Following (log : List (HsMessage Byte)) (d : DgramHandshake Byte) : Prop where
  follows : d.role = .responder
  cached : ∀ m ∈ d.cached, m ∈ log
  capped : Capped log
  unanswered : d.expecting = messageTypeClientHello →
    emitted messageTypeServerHello log = ∅ ∧ emitted messageTypeServerFinished log = ∅
  asked : d.expecting = messageTypeClientHello → d.hs.state = .initial →
    Asked d.hs ∨ emitted messageTypeHelloRetryRequest log = ∅
  once : Sealed d.hs (d.hs.state ≠ .initial)

section Follow
variable (following : Following log d)
include following

theorem Following.repeats (repeats : ∀ m ∈ out, m ∈ log) : Following (log ++ out) d :=
  { following with
    cached := fun m mem => List.mem_append_left _ (following.cached m mem)
    capped := following.capped.repeats repeats
    unanswered := fun expects => by
      rw [emitted_repeats repeats, emitted_repeats repeats]
      exact following.unanswered expects
    asked := fun expects initial => by
      rw [emitted_repeats repeats]
      exact following.asked expects initial }

theorem Following.unsealed (initial : d.hs.state = .initial) : d.hs.sealed = [] :=
  following.once.2.resolve_right fun past => past initial

theorem Following.past (answered : d.hs.state ≠ .initial → d'.hs.state ≠ .initial)
    (kept : d'.hs.sealed = d.hs.sealed) : Sealed d'.hs (d'.hs.state ≠ .initial) :=
  ⟨kept ▸ following.once.1, following.once.2.imp kept.trans answered⟩

/-- The step lemma for a responder, which does not return to its initial state. -/
theorem Following.responds (answered : d.hs.state ≠ .initial → d'.hs.state ≠ .initial)
    (responds : Responds env coins typ body d reaction d') :
    Following (log ++ reaction.1) d' := by
  cases responds with
  | rests out repeats =>
    refine following.repeats fun m mem => ?_
    rcases repeats with rfl | rfl
    · cases mem
    · exact following.cached m mem
  | loses h asked still kept =>
    rw [List.append_nil]
    exact { following with
      asked := fun expects initial =>
        (following.asked expects (not_not.mp fun past => answered past initial)).imp
          (asked expects) id
      once := following.past answered kept }
  | asks h h' retry hello expects processed created =>
    have initial := (processClientHello_ok_iff.mp processed).1
    have use : keyUse (processClientHello env coins body d.hs).2 = keyUse d.hs :=
      processClientHello_keyUse body d.hs
    rw [processed] at use
    have unsealed : h.sealed = [] := (congrArg Prod.fst use).trans (following.unsealed initial)
    obtain ⟨due, -, hash, -, rfl⟩ := createHelloRetryRequest_ok_iff.mp created
    have unused : emitted messageTypeHelloRetryRequest log = ∅ := by
      refine (following.asked expects initial).resolve_left fun asked => ?_
      have still : Asked (processClientHello env coins body d.hs).2 :=
        processClientHello_asked d.hs asked
      rw [processed] at still
      exact absurd due (Bool.eq_false_iff.mp still.2)
    obtain ⟨hellos, finished⟩ := following.unanswered expects
    refine ⟨following.follows, fun m mem => List.mem_append_right _ mem,
      following.capped.adds retry (allowance_unused unused), fun _ => ?_,
      fun _ _ => .inl ⟨rfl, rfl⟩, .unsealed unsealed⟩
    rw [emitted_other (by decide), emitted_other (by decide)]
    exact ⟨hellos, finished⟩
  | fails h h₁ h₂ reply hello expects processed created spent few =>
    rw [following.unsealed (processClientHello_ok_iff.mp processed).1] at few
    rw [List.append_nil]
    exact { following with
      asked := fun _ initial => absurd initial spent
      once := ⟨few, .inr spent⟩ }
  | answers h h₁ h₂ reply finished hello expects processed created sealed =>
    have few : (createServerFinished env h₁).2.sealed.length ≤ _ := createServerFinished_seals h₁
    have use : keyUse (processClientHello env coins body d.hs).2 = keyUse d.hs :=
      processClientHello_keyUse body d.hs
    have use' : keyUse (createServerHello env coins h).2 = keyUse h :=
      createServerHello_moves.keyUse h
    rw [processed] at use
    rw [created] at use'
    have unsealed : h₁.sealed = [] := (congrArg Prod.fst (use'.trans use)).trans
      (following.unsealed (processClientHello_ok_iff.mp processed).1)
    rw [sealed, unsealed] at few
    obtain ⟨hellos, finals⟩ := following.unanswered expects
    have greeted := following.capped.adds reply (allowance_unused hellos)
    have unused : emitted messageTypeServerFinished (log ++ [⟨messageTypeServerHello, reply⟩]) =
        ∅ := by
      rw [emitted_other (by decide)]
      exact finals
    have capped := greeted.adds finished (allowance_unused unused)
    rw [List.append_assoc] at capped
    refine ⟨following.follows, fun m mem => List.mem_append_right _ mem, capped,
      fun hello => absurd (show messageTypeClientFinished = _ from hello) (by decide),
      fun hello => absurd (show messageTypeClientFinished = _ from hello) (by decide),
      few, .inr ?_⟩
    obtain ⟨-, _, _, _, -, -, -, -, rfl⟩ := createServerFinished_ok_iff.mp sealed
    simp [finishedBy]
  | completes h finished expects processed =>
    obtain ⟨-, _, _, _, _, _, -, -, -, -, -, -, -, -, rfl⟩ :=
      processClientFinished_ok_iff.mp processed
    rw [List.append_nil]
    exact { following with
      unanswered := fun hello => absurd (show 0 = messageTypeClientHello from hello) (by decide)
      asked := fun hello => absurd (show 0 = messageTypeClientHello from hello) (by decide)
      once := following.past answered rfl }

end Follow

theorem capped_nil : Capped ([] : List (HsMessage Byte)) := fun typ => by simp [emitted]

theorem newDgramHandshake_stays (session : Session Byte) :
    Leading [] (newDgramHandshake session) ∨ Following [] (newDgramHandshake session) := by
  have cached : ∀ m ∈ (newDgramHandshake session).cached, m ∈ ([] : List (HsMessage Byte)) :=
    fun _ mem => mem
  cases role : session.role with
  | initiator =>
    have idle : (newDgramHandshake session).expecting = 0 := by simp [newDgramHandshake, role]
    refine .inl ⟨role, ?_, cached, capped_nil, fun _ _ => by simp [emitted], fun _ => rfl,
      .unsealed rfl⟩
    rw [idle]
    decide
  | responder =>
    exact .inr ⟨role, cached, capped_nil, fun _ => ⟨rfl, rfl⟩, fun _ _ => .inr rfl, .unsealed rfl⟩

variable {session : Session Byte}

theorem start_leads (role : session.role = .initiator)
    (ran : start env coins (newDgramHandshake session) = (.ok out, d)) : Leading out d := by
  obtain ⟨hello, _, first, rest⟩ := bind_ok_iff.mp ran
  obtain ⟨h, created, rfl⟩ := onHs_iff.mp first
  simp only [write_bind, pure_ok_iff] at rest
  obtain ⟨rfl, rfl⟩ := rest
  have kept : keyUse (createClientHello env coins (newDgramHandshake session).hs).2 = _ :=
    createClientHello_moves.keyUse _
  rw [created] at kept
  have unsealed : h.sealed = [] := congrArg Prod.fst kept
  have single : emitted messageTypeClientHello [⟨messageTypeClientHello, hello⟩] = {hello} := rfl
  refine ⟨role, show messageTypeServerHello ≠ messageTypeHelloRetryRequest by decide,
    fun m mem => mem, capped_nil.adds hello (allowance_unused rfl), fun _ _ => ?_, fun _ => rfl,
    .unsealed unsealed⟩
  rw [single, Finset.card_singleton]

/-- The run lemma. -/
theorem Runs.stays (run : Runs env session log d) : Leading log d ∨ Following log d := by
  induction run with
  | new => exact newDgramHandshake_stays session
  | started role ran => exact .inl (start_leads role ran)
  | message coins typ body run ran ih =>
    rcases ih with leading | following
    · exact .inl (leading.initiates (onMessage_initiates leading.leads leading.unasked ran))
    · refine .inr (following.responds (fun past => ?_) (onMessage_responds following.follows ran))
      have answered : Answered (onMessage env coins typ body _).2 :=
        onMessage_answered typ body _ ⟨following.follows, past⟩
      rw [ran] at answered
      exact answered.2

/-- Whatever a machine of either role is sent, all its messages of one type are equal, apart from
a second ClientHello, and at most one plaintext is sealed with its handshake keys. -/
theorem flights_identical {session : Session Byte} (run : Runs env session log d) :
    (emitted messageTypeClientHello log).card ≤ 2 ∧
    (∀ m ∈ log, ∀ m' ∈ log, m.typ = m'.typ → m.typ ≠ messageTypeClientHello → m = m') ∧
    d.hs.sealed.length ≤ 1 := by
  have few : Capped log ∧ d.hs.sealed.length ≤ 1 := by
    rcases run.stays with leading | following
    · exact ⟨leading.capped, leading.once.1⟩
    · exact ⟨following.capped, following.once.1⟩
  refine ⟨few.1 _, ?_, few.2⟩
  rintro ⟨typ, body⟩ mem ⟨_, body'⟩ mem' ⟨⟩ other
  have one : (emitted typ log).card ≤ 1 := by simpa [allowance, other] using few.1 typ
  rw [Finset.card_le_one.mp one body (mem_emitted.mpr mem) body' (mem_emitted.mpr mem')]

/-- A responder that answers a ClientHello and hears it again has sealed its Finished. -/
theorem flights_identical_symbolic : ∃ (session : Session Letter) (log : List (HsMessage Letter))
    (d : DgramHandshake Letter), Runs SymbolicKem.env session log d ∧
    log.map HsMessage.typ = [messageTypeServerHello, messageTypeServerFinished,
      messageTypeServerHello, messageTypeServerFinished] ∧ d.hs.sealed ≠ [] ∧
    (∀ m ∈ log, ∀ m' ∈ log, m.typ = m'.typ → m.typ ≠ messageTypeClientHello → m = m') ∧
    d.hs.sealed.length ≤ 1 := by
  obtain ⟨i, r, -, follows, ⟨exchange⟩⟩ := DatagramDriver.symbolic_exchange
  let flight : List (HsMessage Letter) := [⟨messageTypeServerHello, exchange.serverHello⟩,
    ⟨messageTypeServerFinished, exchange.serverFinished⟩]
  let answered : DgramHandshake Letter := { newDgramHandshake r with
    hs := exchange.responder, prev := messageTypeClientHello
    expecting := messageTypeClientFinished, cached := flight }
  have first : onMessage SymbolicKem.env steadyCoins messageTypeClientHello exchange.clientHello
      (newDgramHandshake r) = (.ok (flight, false), answered) := by
    have expects : (newDgramHandshake r).expecting = messageTypeClientHello := by
      simp [newDgramHandshake, follows]
    rw [onMessage_advances (.inl ⟨by decide, expects.symm⟩), advance, read_bind,
      show (newDgramHandshake r).role = .responder from follows]
    have fresh : ¬ RepeatsHello (newDgramHandshake r) exchange.clientHello :=
      fun repeats => by cases repeats.1
    simp only [advanceClientHello, dropping, read_bind, if_neg fresh, if_pos]
    simp only [run_bind, onHs, exchange.accepts]
    simp only [answerClientHello, read_bind, exchange.answers, Bool.false_eq_true, if_false]
    simp only [run_bind, onHs, exchange.answer, exchange.finishes]
    rfl
  have again : onMessage SymbolicKem.env steadyCoins messageTypeClientHello exchange.clientHello
      answered = (.ok (flight, false), answered) := by
    have role : answered.role = .responder := follows
    have moved : messageTypeClientHello ≠ answered.expecting :=
      show messageTypeClientHello ≠ messageTypeClientFinished by decide
    rw [onMessage, read_bind, if_neg fun expected => moved expected.2, if_neg (by simp [role]),
      if_neg (by simp [role]), if_neg (by simp [role]), if_pos ⟨by decide, rfl, rfl⟩]
    rfl
  have run := (Runs.new.message _ _ _ first).message _ _ _ again
  have sealed : exchange.responder.sealed ≠ [] := by
    obtain ⟨-, _, _, _, -, -, -, -, same⟩ := createServerFinished_ok_iff.mp exchange.finishes
    simp [same, finishedBy, sealing]
  exact ⟨r, _, _, run, rfl, sealed, (flights_identical run).2⟩

end QuantumGo.FlightIdentity
