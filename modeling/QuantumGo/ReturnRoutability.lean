import QuantumGo.HelloDispatch

/-!
Return routability: under pressure a responder is started for a source only behind a cookie
that came back from it. A frame gets past the gate with a cookie, from a source in progress or
with a known index; the last kind is delivered by that index, and a hello that is dispatched
again belongs to a source that has had a responder.
-/

namespace QuantumGo.ReturnRoutability

open Octets Wire DatagramSession HandshakeFrames Tables Registry Interleaving HelloDispatch


variable {Byte Addr : Type} [Octet Byte]

/-! What is assumed of a run. -/

def unrelieved : Gate Byte → Bool
  | .uncrowded _ _ => true
  | _ => false

/-- underCookiePressure answers yes: its second reading does where the first does not. -/
def Pressed (env : Env Byte Addr) (w : World Byte Addr) : Event Byte Addr → Prop
  | .call i _ _ => ∀ c ∈ w.calls[i]?, unrelieved c.stage = true →
      env.cookiePressureHighWater ≤ halfOpenLoad w.registry
  | _ => True

/-- A tag that verifies for its source is one that the endpoint has issued. -/
def Unforged (env : Env Byte Addr) (w : World Byte Addr) : Event Byte Addr → Prop
  | .arrive src data => ∀ frame ∈ (parseDatagramHandshake data).toOption,
      frame.1.cookie.drop cookieTimestampSize =
        tag env src (frame.1.cookie.take cookieTimestampSize) →
      ∃ cookie ∈ w.issued,
        tag env cookie.1 (timestamp cookie.2) = frame.1.cookie.drop cookieTimestampSize
  | _ => True

instance (env : Env Byte Addr) (w : World Byte Addr) (e : Event Byte Addr) :
    Decidable (Pressed env w e) :=
  match e with
  | .call i _ _ => inferInstanceAs (Decidable (∀ c ∈ w.calls[i]?, _))
  | .tick _ | .close | .arrive .. | .deliver _ | .dial _ | .act .. | .begin _ | .take ..
  | .timeout _ | .note _ | .redeliver _ => .isTrue trivial

instance (env : Env Byte Addr) (w : World Byte Addr) (e : Event Byte Addr) :
    Decidable (Unforged env w e) :=
  match e with
  | .arrive _ data =>
    inferInstanceAs (Decidable (∀ frame ∈ (parseDatagramHandshake data).toOption, _))
  | .tick _ | .close | .call .. | .deliver _ | .dial _ | .act .. | .begin _ | .take ..
  | .timeout _ | .note _ | .redeliver _ => .isTrue trivial

/-! What holds of a run. -/

/-- The call's frame carries a cookie that was issued before it arrived, for an address with the
string of its source and at most the lifetime ago. -/
structure Carries (env : Env Byte Addr) (w : World Byte Addr) (c : Call Byte Addr) (now : Int64)
    (cookie : Addr × Int64) : Prop where
  carried : ∃ h fragment, parseDatagramHandshake c.data = .ok (h, fragment) ∧
    h.cookie = issue env cookie.1 cookie.2
  earlier : cookie ∈ w.issued.take c.issuedBefore
  same : env.form cookie.1 = env.form c.src
  fresh : cookie.2.toInt ≤ now.toInt ∧ now.toInt ≤ cookie.2.toInt + cookieLifetime

def Opened (env : Env Byte Addr) (source : List Byte) (w : World Byte Addr) : Prop :=
  ∃ i now c cookie, (i, now) ∈ w.verified ∧ w.calls[i]? = some c ∧ env.form c.src = source ∧
    Carries env w c now cookie

/-- The source has no responder, and no frame of it is on the way to one. -/
structure Untouched (env : Env Byte Addr) (source : List Byte) (w : World Byte Addr) : Prop where
  entry : w.registry.bySource.lookup source = none
  loops : ∀ l ∈ w.loops, l.role = .responder → l.src ≠ source
  deliveries : ∀ d ∈ w.deliveries, d.src = source → d.recvIndex ≠ 0 ∧ d.stage ≠ .checked
  calls : ∀ c ∈ w.calls, env.form c.src = source → ∀ h fragment, c.stage = .passed h fragment →
    h.recvIndex ≠ 0

structure Unchanged (w w' : World Byte Addr) : Prop where
  reasm : w'.reasm = w.reasm
  registry : w'.registry = w.registry
  recent : w'.recent = w.recent
  loops : w'.loops = w.loops
  deliveries : w'.deliveries = w.deliveries

theorem start_untouched (env : Env Byte Addr) (source : List Byte)
    (option cores : Int) : Untouched env source (start option cores : World Byte Addr) := by
  refine ⟨rfl, ?_, ?_, ?_⟩ <;> simp [start]

variable {env : Env Byte Addr} {now : Int64}

/-! A cookie that verifies. -/

section Cookie

theorem timestamp_length (now : Int64) :
    (timestamp now : List Byte).length = cookieTimestampSize := toBE_length _ _

theorem timestamp_read (now : Int64) :
    (UInt64.ofNat (ofBE (timestamp now : List Byte))).toInt64 = now := by
  have fits : now.toUInt64.toNat < 256 ^ cookieTimestampSize := now.toUInt64.toNat_lt
  rw [timestamp, ofBE_toBE_of_lt fits, UInt64.ofNat_toNat, Int64.toInt64_toUInt64]

theorem verify_iff {addr : Addr} {cookie : List Byte} :
    verify env addr cookie now = true ↔ cookie.length = cookieSize ∧
      cookie.drop cookieTimestampSize = tag env addr (cookie.take cookieTimestampSize) ∧
      0 ≤ sub now (UInt64.ofNat (ofBE (cookie.take cookieTimestampSize))).toInt64 ∧
      sub now (UInt64.ofNat (ofBE (cookie.take cookieTimestampSize))).toInt64 ≤ cookieLifetime := by
  unfold verify
  by_cases size : cookie.length = cookieSize
  · by_cases tagged : cookie.drop cookieTimestampSize =
        tag env addr (cookie.take cookieTimestampSize)
    · rw [if_neg (not_not.mpr size), if_neg (not_not.mpr tagged), decide_eq_true_iff]
      exact ⟨fun age => ⟨size, tagged, age⟩, fun all => all.2.2⟩
    · rw [if_neg (not_not.mpr size), if_pos tagged]
      exact ⟨fun none => (by cases none), fun all => absurd all.2.1 tagged⟩
  · rw [if_pos size]
    exact ⟨fun none => (by cases none), fun all => absurd all.1 size⟩

theorem verify_issued (injective : Function.Injective env.mac) {addr issuer : Addr}
    {cookie : List Byte} {issuedAt : Int64} (verified : verify env addr cookie now = true)
    (genuine : tag env issuer (timestamp issuedAt) = cookie.drop cookieTimestampSize) :
    env.form issuer = env.form addr ∧ cookie = issue env issuer issuedAt ∧
      issuedAt.toInt ≤ now.toInt ∧ now.toInt ≤ issuedAt.toInt + cookieLifetime := by
  obtain ⟨size, tagged, age⟩ := verify_iff.mp verified
  have full : (cookie.take cookieTimestampSize).length = cookieTimestampSize := by
    rw [List.length_take, size]
    rfl
  -- the tag determines the address and the timestamp, which has a fixed length
  have input := injective (genuine.trans tagged)
  have parts := List.append_inj' input (by rw [timestamp_length, full])
  refine ⟨parts.1, ?_, ?_⟩
  · rw [issue, genuine, parts.2, List.take_append_drop]
  · rw [← parts.2, timestamp_read] at age
    unfold sub cookieLifetime at age
    unfold cookieLifetime
    omega

end Cookie

variable {w : World Byte Addr} {i : Nat} {c : Call Byte Addr} {stage : Gate Byte}
  {events : List (Event Byte Addr)}

/-! What an event does to the calls and their logs. -/

section Calls
variable {w' : World Byte Addr}

structure Grows (w w' : World Byte Addr) : Prop where
  issued : ∃ more, w'.issued = w.issued ++ more
  verified : ∀ entry ∈ w.verified, entry ∈ w'.verified
  calls : ∀ (i : Nat) (c : Call Byte Addr), w.calls[i]? = some c →
    ∃ stage, w'.calls[i]? = some { c with stage }

structure SameCalls (w w' : World Byte Addr) : Prop where
  calls : w'.calls = w.calls
  issued : w'.issued = w.issued
  verified : w'.verified = w.verified
  retries : w'.retries = w.retries

omit [Octet Byte] in
theorem SameCalls.grows (same : SameCalls w w') : Grows w w' where
  issued := ⟨[], by rw [same.issued, List.append_nil]⟩
  verified := by
    rw [same.verified]
    exact fun _ member => member
  calls := by
    intro i c found
    rw [same.calls]
    exact ⟨c.stage, found⟩

/-- Only arrivals and receive calls concern the calls. -/
theorem perform_calls (env : Env Byte Addr) (w : World Byte Addr) (e : Event Byte Addr) :
    (∃ src data, e = .arrive src data) ∨
    (∃ i now meeting c c' after, e = .call i now meeting ∧ w.calls[i]? = some c ∧
      Routes env i now meeting c w c' after ∧
      perform env w e = { after with calls := w.calls.set i c' }) ∨
    SameCalls w (perform env w e) := by
  have performs := perform_performs env w e
  generalize perform env w e = w' at performs ⊢
  cases performs with
  | arrives src data => exact .inl ⟨src, data, rfl⟩
  | calls i now meeting c c' after found routes =>
    exact .inr (.inl ⟨i, now, meeting, c, c', after, rfl, found, routes, rfl⟩)
  | delivers _ _ _ _ _ dispatches => cases dispatches <;> exact .inr (.inr ⟨rfl, rfl, rfl, rfl⟩)
  | _ => exact .inr (.inr ⟨rfl, rfl, rfl, rfl⟩)

/-- What the reassembler does with a frame is outside the logs. -/
theorem reassemble_calls (meeting : Reassembly.Meeting) (c : Call Byte Addr)
    (h : DatagramHandshakeHeader Byte) (fragment : List Byte) :
    SameCalls w (reassemble env meeting c h fragment w) := by
  unfold reassemble
  split
  · split <;> exact ⟨rfl, rfl, rfl, rfl⟩
  · exact ⟨rfl, rfl, rfl, rfl⟩

omit [Octet Byte] in
theorem calls_append (found : w.calls[i]? = some c) (more : List (Call Byte Addr)) :
    (w.calls ++ more)[i]? = some c := by
  obtain ⟨inside, -⟩ := List.getElem?_eq_some_iff.mp found
  rw [List.getElem?_append_left inside, found]

omit [Octet Byte] in
theorem calls_moved (found : w.calls[i]? = some c) (j : Nat) (other : Call Byte Addr)
    (there : w.calls[j]? = some other) :
    ∃ stage', (w.calls.set i { c with stage })[j]? = some { other with stage := stage' } := by
  by_cases same : j = i
  · subst same
    obtain rfl := Option.some.inj (there.symm.trans found)
    exact ⟨stage, (getElem?_replaced found _ _).mpr (.inl ⟨rfl, rfl⟩)⟩
  · exact ⟨other.stage, (getElem?_replaced found j other).mpr (.inr ⟨same, there⟩)⟩

theorem perform_grows (env : Env Byte Addr) (w : World Byte Addr) (e : Event Byte Addr) :
    Grows w (perform env w e) := by
  obtain ⟨src, data, rfl⟩ | ⟨i, now, meeting, c, c', after, rfl, found, routes, moved⟩ | same :=
    perform_calls env w e
  · refine ⟨⟨[], (List.append_nil _).symm⟩, fun _ member => member, ?_⟩
    intro i c found
    exact ⟨c.stage, calls_append found _⟩
  · rw [moved]
    cases routes with
    | waits stage =>
      exact ⟨⟨[], (List.append_nil _).symm⟩, fun _ member => member, calls_moved found⟩
    | verifies h fragment =>
      exact ⟨⟨[], (List.append_nil _).symm⟩, fun _ member => List.mem_append_left _ member,
        calls_moved found⟩
    | challenges h fragment => exact ⟨⟨_, rfl⟩, fun _ member => member, calls_moved found⟩
    | reassembles h fragment =>
      have same : SameCalls w (reassemble env meeting c h fragment w) :=
        reassemble_calls meeting c h fragment
      refine ⟨⟨[], ?_⟩, ?_, calls_moved found⟩
      · rw [List.append_nil]
        exact same.issued
      · intro entry member
        dsimp only
        rw [same.verified]
        exact member
  · exact same.grows

structure Genuine (env : Env Byte Addr) (w : World Byte Addr) (c : Call Byte Addr) : Prop where
  before : c.issuedBefore ≤ w.issued.length
  held : ∀ frame, c.stage.frame = some frame → parseDatagramHandshake c.data = .ok frame
  issued : ∀ h fragment, parseDatagramHandshake c.data = .ok (h, fragment) →
    h.cookie.drop cookieTimestampSize = tag env c.src (h.cookie.take cookieTimestampSize) →
    ∃ cookie ∈ w.issued.take c.issuedBefore,
      tag env cookie.1 (timestamp cookie.2) = h.cookie.drop cookieTimestampSize

omit [Octet Byte] in
/-- The cookies that a call has behind it stay. -/
theorem Grows.take (grows : Grows w w') {n : Nat} (before : n ≤ w.issued.length) :
    w'.issued.take n = w.issued.take n ∧ n ≤ w'.issued.length := by
  obtain ⟨more, issued⟩ := grows.issued
  rw [issued]
  refine ⟨List.take_append_of_le_length before, ?_⟩
  rw [List.length_append]
  omega

theorem Genuine.grows (genuine : Genuine env w c) (grows : Grows w w')
    (held : ∀ frame, stage.frame = some frame → parseDatagramHandshake c.data = .ok frame) :
    Genuine env w' { c with stage } := by
  obtain ⟨same, before⟩ := grows.take genuine.before
  refine ⟨before, held, ?_⟩
  dsimp only
  rw [same]
  exact genuine.issued

theorem genuine_step {e : Event Byte Addr} (unforged : Unforged env w e)
    (genuine : ∀ c ∈ w.calls, Genuine env w c) :
    ∀ c ∈ (perform env w e).calls, Genuine env (perform env w e) c := by
  have grows := perform_grows env w e
  obtain ⟨src, data, rfl⟩ | ⟨i, now, meeting, c, c', after, rfl, found, routes, moved⟩ | same :=
    perform_calls env w e
  · refine forall_added (fun c old => (genuine c old).grows grows (genuine c old).held) ?_
    refine ⟨le_rfl, by simp [Gate.frame], ?_⟩
    intro h fragment parsed tagged
    obtain ⟨cookie, issued, tags⟩ := unforged (h, fragment)
      (by rw [show parseDatagramHandshake data = _ from parsed]; rfl) tagged
    refine ⟨cookie, ?_, tags⟩
    change cookie ∈ w.issued.take w.issued.length
    rw [List.take_length]
    exact issued
  · have here := genuine c (List.mem_of_getElem? found)
    rw [moved] at grows ⊢
    refine forall_replaced (fun c old => (genuine c old).grows grows (genuine c old).held) ?_
    cases routes with
    | waits stage held =>
      refine here.grows grows fun frame same => ?_
      rcases held frame same with earlier | parsed
      · exact here.held frame earlier
      · exact parsed
    | verifies h fragment unknown =>
      exact here.grows grows fun frame same => here.held frame (by rw [unknown]; exact same)
    | challenges | reassembles => exact here.grows grows fun _ none => by cases none
  · intro c member
    rw [same.calls] at member
    exact (genuine c member).grows grows (genuine c member).held

theorem genuine_run {option cores : Int}
    (unforged : Along (perform env) (Unforged env) events (start option cores)) :
    ∀ c ∈ (run (perform env) events (start option cores)).calls,
      Genuine env (run (perform env) events (start option cores)) c := by
  have kept : ∀ w e, Unforged env w e → (∀ c ∈ w.calls, Genuine env w c) →
      ∀ c ∈ (perform env w e).calls, Genuine env (perform env w e) c :=
    fun _ _ unforged genuine => genuine_step unforged genuine
  exact invariant_run kept unforged (by simp [start])

theorem Opened.grows {source : List Byte} (opened : Opened env source w) (grows : Grows w w')
    (genuine : ∀ c ∈ w.calls, Genuine env w c) : Opened env source w' := by
  obtain ⟨i, now, c, cookie, verified, found, form, carries⟩ := opened
  obtain ⟨stage, there⟩ := grows.calls i c found
  obtain ⟨same, -⟩ := grows.take (genuine c (List.mem_of_getElem? found)).before
  refine ⟨i, now, _, cookie, grows.verified _ verified, there, form, carries.carried, ?_,
    carries.same, carries.fresh⟩
  change cookie ∈ w'.issued.take c.issuedBefore
  rw [same]
  exact carries.earlier

end Calls

variable {after : World Byte Addr}

/-! The doors. -/

section Doors
variable {source : List Byte}

theorem Untouched.loop (untouched : Untouched env source w) {l l' : Loop Byte}
    (found : w.loops[i]? = some l) (same : l.Same l') :
    ∀ m ∈ w.loops.set i l', m.role = .responder → m.src ≠ source := by
  refine forall_replaced untouched.loops fun responder => ?_
  rw [same.src]
  exact untouched.loops l (List.mem_of_getElem? found) (same.role.symm.trans responder)

/-- A delivery to an untouched source goes by its index. -/
theorem Untouched.delivers (untouched : Untouched env source w) {d : Delivery Byte}
    {stage : Dispatch} (found : w.deliveries[i]? = some d)
    (dispatches : Dispatches env d w stage after) : Untouched env source
      { after with deliveries := w.deliveries.set i { d with stage } } := by
  have here := untouched.deliveries d (List.mem_of_getElem? found)
  have others (unchecked : d.src = source → stage ≠ .checked) :
      ∀ other ∈ w.deliveries.set i { d with stage }, other.src = source →
        other.recvIndex ≠ 0 ∧ other.stage ≠ .checked :=
    forall_replaced untouched.deliveries fun mine => ⟨(here mine).1, unchecked mine⟩
  cases dispatches with
  | waits _ unchecked => exact { untouched with deliveries := others fun _ => unchecked }
  | checks answer recent entered bootstrap =>
    exact { untouched with deliveries := others fun mine => absurd bootstrap (here mine).1 }
  | queues n l _ there unchecked =>
    exact { untouched with
      loops := untouched.loop there (l.queue_same d.msg), deliveries := others fun _ => unchecked }
  | starts registry checked entries =>
    have elsewhere : d.src ≠ source := fun mine => (here mine).2 checked
    refine ⟨?_, forall_added untouched.loops fun _ => elsewhere,
      others fun mine => absurd mine elsewhere, untouched.calls⟩
    dsimp only
    rw [entries, AList.lookup_insert_ne elsewhere.symm]
    exact untouched.entry

/-- A receive call opens an untouched source with its cookie, or leaves it untouched. -/
theorem Untouched.call (injective : Function.Injective env.mac) (untouched : Untouched env source w)
    (genuine : ∀ c ∈ w.calls, Genuine env w c) {meeting : Reassembly.Meeting}
    (pressed : Pressed env w (.call i now meeting)) {c' : Call Byte Addr}
    (found : w.calls[i]? = some c) (routes : Routes env i now meeting c w c' after) :
    Opened env source { after with calls := w.calls.set i c' } ∨
      Untouched env source { after with calls := w.calls.set i c' } := by
  have here := genuine c (List.mem_of_getElem? found)
  have others {stage : Gate Byte} (closed : env.form c.src = source → ∀ h fragment,
      stage = .passed h fragment → h.recvIndex ≠ 0) :
      ∀ other ∈ w.calls.set i { c with stage }, env.form other.src = source →
        ∀ h fragment, other.stage = .passed h fragment → h.recvIndex ≠ 0 :=
    forall_replaced untouched.calls closed
  cases routes with
  | waits stage held rejected ended door =>
    refine .inr { untouched with calls := others ?_ }
    intro mine h fragment passed bootstrap
    rcases door h fragment passed with ⟨uncrowded, relieved⟩ | known
    · -- the pressure does not let up
      have := pressed c found (by rw [uncrowded]; rfl)
      omega
    · -- without an index the source would have to be known
      rw [bootstrap, mine, knownSource_zero, untouched.entry] at known
      cases known
  | verifies h fragment unknown verified =>
    by_cases mine : env.form c.src = source
    · left
      have parsed := here.held (h, fragment) (by rw [unknown]; rfl)
      obtain ⟨cookie, issued, tags⟩ := here.issued h fragment parsed (verify_iff.mp verified).2.1
      obtain ⟨form, same, fresh⟩ := verify_issued injective verified tags
      exact ⟨i, now, _, cookie, List.mem_append_right _ (List.mem_singleton_self _),
        (getElem?_replaced found _ _).mpr (.inl ⟨rfl, rfl⟩), mine,
        ⟨⟨h, fragment, parsed, same⟩, issued, form, fresh⟩⟩
    · exact .inr { untouched with calls := others fun same => absurd same mine }
  | challenges h fragment =>
    refine .inr { untouched with calls := others ?_ }
    intro _ _ _ passed
    cases passed
  | reassembles h fragment passed =>
    right
    have indexed : env.form c.src = source → h.recvIndex ≠ 0 := fun mine =>
      untouched.calls c (List.mem_of_getElem? found) mine h fragment passed
    have ended : env.form c.src = source → ∀ h fragment,
        (.ended : Gate Byte) = .passed h fragment → h.recvIndex ≠ 0 := by
      intro _ _ _ none
      cases none
    unfold reassemble
    split
    · split
      · exact { untouched with calls := others ended }
      · exact { untouched with
          calls := others ended
          deliveries := forall_added untouched.deliveries fun mine => ⟨indexed mine, by simp⟩ }
    · exact { untouched with calls := others ended }

theorem Untouched.step (injective : Function.Injective env.mac) (untouched : Untouched env source w)
    (genuine : ∀ c ∈ w.calls, Genuine env w c) {e : Event Byte Addr} (pressed : Pressed env w e) :
    Opened env source (perform env w e) ∨ Untouched env source (perform env w e) := by
  have performs := perform_performs env w e
  generalize perform env w e = w' at performs ⊢
  cases performs with
  | idle => exact .inr untouched
  | calls _ _ _ _ _ _ found routes => exact untouched.call injective genuine pressed found routes
  | delivers _ _ _ _ found dispatches => exact .inr (untouched.delivers found dispatches)
  | ticks | closes | times => exact .inr { untouched with }
  | arrives src data =>
    refine .inr { untouched with calls := forall_added untouched.calls ?_ }
    intro _ _ _ passed
    cases passed
  | dials dst =>
    refine .inr { untouched with loops := forall_added untouched.loops fun responder => ?_ }
    cases responder
  | acts i action l found =>
    exact .inr { untouched with
      entry := act_entries i l.toLoop w.registry action untouched.entry
      loops := untouched.loop found (act_same i l w.registry action) }
  | begins i l found =>
    have queued := l.queue_same l.first
    exact .inr { untouched with
      loops := untouched.loop found ⟨queued.role, queued.src, queued.first⟩ }
  | takes i reply l _ m rest found _ _ moved =>
    have received := l.onInbound_same w.clock m reply
    subst moved
    exact .inr { untouched with
      loops := untouched.loop found ⟨received.role, received.src, received.first⟩ }
  | notes i l found =>
    exact .inr { untouched with loops := untouched.loop found ⟨rfl, rfl, rfl⟩ }
  | redelivers i l m rest found responder _ deliveries new =>
    have elsewhere : l.src ≠ source := untouched.loops l (List.mem_of_getElem? found) responder
    refine .inr { untouched with
      loops := untouched.loop found ⟨rfl, rfl, rfl⟩, deliveries := fun d member mine => ?_ }
    -- a hello that goes round again is one for the loop's own source
    rcases new d member with old | rfl
    · exact untouched.deliveries d old mine
    · exact absurd mine elsewhere

structure Screened (env : Env Byte Addr) (source : List Byte) (w : World Byte Addr) : Prop where
  calls : ∀ c ∈ w.calls, Genuine env w c
  source : Opened env source w ∨ Untouched env source w

theorem opened_run (injective : Function.Injective env.mac)
    (unforged : Along (perform env) (Unforged env) events w)
    (pressed : Along (perform env) (Pressed env) events w)
    (genuine : ∀ c ∈ w.calls, Genuine env w c) (untouched : Untouched env source w) :
    Opened env source (run (perform env) events w) ∨
      Untouched env source (run (perform env) events w) := by
  have kept : ∀ w e, Unforged env w e ∧ Pressed env w e → Screened env source w →
      Screened env source (perform env w e) := by
    rintro w e ⟨unforged, pressed⟩ ⟨genuine, opened | untouched⟩
    · exact ⟨genuine_step unforged genuine, .inl (opened.grows (perform_grows env w e) genuine)⟩
    · exact ⟨genuine_step unforged genuine, untouched.step injective genuine pressed⟩
  exact (invariant_run kept (unforged.both pressed) ⟨genuine, .inr untouched⟩).source

end Doors

/-! Frames that are rejected. -/

section Rejections

structure Answered (w : World Byte Addr) : Prop where
  once : ∀ i, w.retries.countP (·.1 = i) ≤ 1
  rejected : ∀ i frame, (i, frame) ∈ w.retries →
    ∃ c, w.calls[i]? = some c ∧ c.stage = .rejected ∧ frame.length ≤ c.data.length

omit [Octet Byte] in
theorem Answered.silent (answered : Answered w) (found : w.calls[i]? = some c)
    (waiting : c.stage ≠ .rejected) (frame : List Byte) : (i, frame) ∉ w.retries := by
  intro member
  obtain ⟨c', there, rejected, -⟩ := answered.rejected i frame member
  obtain rfl := Option.some.inj (there.symm.trans found)
  exact waiting rejected

omit [Octet Byte] in
theorem Answered.moved (answered : Answered w) (found : w.calls[i]? = some c)
    (kept : c.stage = .rejected → stage = .rejected) (j : Nat) (frame : List Byte)
    (member : (j, frame) ∈ w.retries) :
    ∃ c', (w.calls.set i { c with stage })[j]? = some c' ∧ c'.stage = .rejected ∧
      frame.length ≤ c'.data.length := by
  obtain ⟨c', there, rejected, short⟩ := answered.rejected j frame member
  by_cases same : j = i
  · subst same
    obtain rfl := Option.some.inj (there.symm.trans found)
    exact ⟨_, (getElem?_replaced found _ _).mpr (.inl ⟨rfl, rfl⟩), kept rejected, short⟩
  · exact ⟨c', (getElem?_replaced found j c').mpr (.inr ⟨same, there⟩), rejected, short⟩

theorem Answered.challenge (answered : Answered w) {h : DatagramHandshakeHeader Byte}
    (found : w.calls[i]? = some c) (waiting : c.stage ≠ .rejected) :
    Answered { HelloDispatch.challenge env i now c h w with
      calls := w.calls.set i { c with stage := .rejected } } := by
  unfold HelloDispatch.challenge
  dsimp only
  split
  · rename_i fits
    have first : w.retries.countP (·.1 = i) = 0 := by
      rw [List.countP_eq_zero]
      rintro ⟨j, frame⟩ member same
      obtain rfl : j = i := by simpa using same
      exact answered.silent found waiting frame member
    refine ⟨fun j => ?_, fun j frame member => ?_⟩
    · have earlier := answered.once j
      rw [List.countP_append, List.countP_singleton]
      by_cases same : i = j
      · subst same
        rw [first]
        simp
      · simpa [same] using earlier
    · rcases List.mem_append.mp member with old | new
      · exact answered.moved found (fun _ => rfl) j frame old
      · obtain ⟨rfl, rfl⟩ := Prod.mk.inj (List.mem_singleton.mp new)
        exact ⟨_, (getElem?_replaced found _ _).mpr (.inl ⟨rfl, rfl⟩), rfl, fits.2.2⟩
  · exact ⟨answered.once, answered.moved found fun _ => rfl⟩

theorem Answered.step (answered : Answered w) (e : Event Byte Addr) :
    Answered (perform env w e) := by
  obtain ⟨src, data, rfl⟩ | ⟨i, now, meeting, c, c', after, rfl, found, routes, moved⟩ | same :=
    perform_calls env w e
  · refine ⟨answered.once, fun i frame member => ?_⟩
    obtain ⟨c, found, rejected, short⟩ := answered.rejected i frame member
    exact ⟨c, calls_append found _, rejected, short⟩
  · rw [moved]
    cases routes with
    | waits stage held rejected => exact ⟨answered.once, answered.moved found rejected.mpr⟩
    | verifies h fragment unknown =>
      exact ⟨answered.once, answered.moved found fun none => by cases unknown.symm.trans none⟩
    | challenges h fragment challenged =>
      exact answered.challenge found (by rw [challenged]; simp)
    | reassembles h fragment passed =>
      have same : SameCalls w (reassemble env meeting c h fragment w) :=
        reassemble_calls meeting c h fragment
      have waiting : c.stage = .rejected → (.ended : Gate Byte) = .rejected :=
        fun none => by cases passed.symm.trans none
      refine ⟨?_, ?_⟩
      · dsimp only
        rw [same.retries]
        exact answered.once
      · dsimp only
        rw [same.retries]
        exact answered.moved found waiting
  · refine ⟨?_, ?_⟩
    · rw [same.retries]
      exact answered.once
    · rw [same.retries, same.calls]
      exact answered.rejected

theorem ended_step (found : w.calls[i]? = some c) (ended : c.stage = .ended) (e : Event Byte Addr) :
    ∃ c, (perform env w e).calls[i]? = some c ∧ c.stage = .ended := by
  obtain ⟨src, data, rfl⟩ | ⟨j, now, meeting, other, other', after, rfl, there, routes,
      moved⟩ | same :=
    perform_calls env w e
  · exact ⟨c, calls_append found _, ended⟩
  · rw [moved]
    by_cases same : i = j
    · subst same
      obtain rfl := Option.some.inj (there.symm.trans found)
      refine ⟨other', (getElem?_replaced there _ _).mpr (.inl ⟨rfl, rfl⟩), ?_⟩
      cases routes with
      | waits stage held rejected stays => exact stays ended
      | verifies h fragment unknown => cases unknown.symm.trans ended
      | challenges h fragment challenged => cases challenged.symm.trans ended
      | reassembles h fragment passed => rfl
    · exact ⟨c, (getElem?_replaced there i c).mpr (.inr ⟨same, found⟩), ended⟩
  · rw [same.calls]
    exact ⟨c, found, ended⟩

theorem ended_run (found : w.calls[i]? = some c) (ended : c.stage = .ended)
    (events : List (Event Byte Addr)) :
    ∃ c, (run (perform env) events w).calls[i]? = some c ∧ c.stage = .ended := by
  induction events generalizing w c with
  | nil => exact ⟨c, found, ended⟩
  | cons e rest ih =>
    obtain ⟨c', there, still⟩ := ended_step found ended e
    exact ih there still

/-- A receive call ends with its step, or the step changes nothing. -/
theorem call_unchanged (env : Env Byte Addr) (w : World Byte Addr) (i : Nat) (now : Int64)
    (meeting : Reassembly.Meeting) :
    Unchanged w (perform env w (.call i now meeting)) ∨
      ∃ c, (perform env w (.call i now meeting)).calls[i]? = some c ∧ c.stage = .ended := by
  have performs := perform_performs env w (.call i now meeting)
  generalize perform env w (.call i now meeting) = w' at performs ⊢
  cases performs with
  | idle => exact .inl ⟨rfl, rfl, rfl, rfl, rfl⟩
  | calls _ _ _ _ _ _ found routes =>
    cases routes with
    | waits | verifies | challenges => exact .inl ⟨rfl, rfl, rfl, rfl, rfl⟩
    | reassembles => exact .inr ⟨_, (getElem?_replaced found _ _).mpr (.inl ⟨rfl, rfl⟩), rfl⟩

end Rejections

/-- The frame of call `i` changes nothing on its way, and its RETRY is the only one and not
longer. -/
structure Harmless (env : Env Byte Addr) (first : World Byte Addr) (events : List (Event Byte Addr))
    (i : Nat) (c : Call Byte Addr) : Prop where
  unchanged : ∀ before now meeting rest, events = before ++ .call i now meeting :: rest →
    Unchanged (run (perform env) before first)
      (perform env (run (perform env) before first) (.call i now meeting))
  once : (run (perform env) events first).retries.countP (·.1 = i) ≤ 1
  short : ∀ frame, (i, frame) ∈ (run (perform env) events first).retries →
    frame.length ≤ c.data.length

/-- From the moment the endpoint is under pressure, and in particular from its start, a responder
for a source that is untouched by then is started behind a cookie from that source. A frame that
is rejected is harmless. -/
theorem return_routability (env : Env Byte Addr) (injective : Function.Injective env.mac)
    (option cores : Int) (prior events : List (Event Byte Addr))
    (unforged : Along (perform env) (Unforged env) (prior ++ events) (start option cores))
    (pressed : Along (perform env) (Pressed env) events
      (run (perform env) prior (start option cores))) :
    (∀ source, Untouched env source (run (perform env) prior (start option cores)) →
      ∀ l ∈ (run (perform env) (prior ++ events) (start option cores)).loops,
        l.role = .responder → l.src = source →
        Opened env source (run (perform env) (prior ++ events) (start option cores))) ∧
    ∀ i c, (run (perform env) (prior ++ events) (start option cores)).calls[i]? = some c →
      c.stage = .rejected → Harmless env (start option cores) (prior ++ events) i c := by
  constructor
  · intro source untouched l member responder mine
    have genuine : ∀ c ∈ (run (perform env) prior (start option cores)).calls,
        Genuine env (run (perform env) prior (start option cores)) c :=
      genuine_run unforged.initial
    rw [run_append] at member ⊢
    rcases opened_run injective unforged.final pressed genuine untouched with opened | untouched
    · exact opened
    · exact absurd mine (untouched.loops l member responder)
  · intro i c found rejected
    have answered : Answered (run (perform env) (prior ++ events) (start option cores)) :=
      invariant_run (fun _ e _ answered => answered.step e) unforged
        ⟨by simp [start], by simp [start]⟩
    refine ⟨?_, answered.once i, ?_⟩
    · intro before now meeting rest split
      rcases call_unchanged env (run (perform env) before (start option cores)) i now meeting with
        unchanged | ⟨c', there, ended⟩
      · exact unchanged
      · -- a call that got as far as the reassembler is not rejected later
        obtain ⟨c'', final, ended⟩ := ended_run there ended rest
        rw [split, run_append] at found
        obtain rfl := Option.some.inj (final.symm.trans found)
        cases ended.symm.trans rejected
    · intro frame member
      obtain ⟨c', there, -, short⟩ := answered.rejected i frame member
      obtain rfl := Option.some.inj (there.symm.trans found)
      exact short

/-! A hello without a cookie is sent back, and comes again with the one from the RETRY. -/

open Symbolic

def helloFrame (cookie : List Letter) : List Letter :=
  let base : DatagramHeader := ⟨datagramFrameHandshake, 0, 0, 0⟩
  let h : DatagramHandshakeHeader Letter := ⟨base, 7, messageTypeClientHello, 0, 30, 30, cookie⟩
  encodeDatagramHeader base ++ (encodeExtension h ++ List.replicate 30 (.byte 1))

def bounced : List (Event Letter Nat) :=
  let meeting : Reassembly.Meeting := ⟨0, 0, ⟨0, 0⟩⟩
  .arrive 5 (helloFrame []) :: (List.replicate 5 (.call 0 1000 meeting) ++
    .arrive 5 (helloFrame (issue (sampleEnv 0) 5 1000)) ::
      (List.replicate 5 (.call 1 2000 meeting) ++ [.deliver 0, .deliver 0]))

theorem return_routability_bounced :
    (run (perform (sampleEnv 0)) bounced (start 1 1)).loops.map (·.src) = [(sampleEnv 0).form 5] ∧
    Opened (sampleEnv 0) ((sampleEnv 0).form 5) (run (perform (sampleEnv 0)) bounced (start 1 1)) ∧
    ∃ c, (run (perform (sampleEnv 0)) bounced (start 1 1)).calls[0]? = some c ∧
      Harmless (sampleEnv 0) (start 1 1) bounced 0 c := by
  have injective : Function.Injective (sampleEnv 0).mac := by
    intro left right same
    obtain ⟨-, args⟩ := Symbolic.symbols_inj (by decide) same
    simpa using args
  have routable := return_routability (sampleEnv 0) injective 1 1 [] bounced (by decide +kernel)
    (by decide +kernel)
  have started : (run (perform (sampleEnv 0)) bounced (start 1 1)).loops.map
      (fun l => (l.role, l.src)) = [(.responder, (sampleEnv 0).form 5)] := by decide +kernel
  have rejected : (run (perform (sampleEnv 0)) bounced (start 1 1)).calls[0]?.map (·.stage) =
      some .rejected := by decide +kernel
  obtain ⟨l, loops, mine⟩ := List.map_eq_singleton_iff.mp started
  obtain ⟨role, src⟩ := Prod.mk.inj mine
  obtain ⟨c, found, stage⟩ := Option.map_eq_some_iff.mp rejected
  refine ⟨by rw [loops, List.map_singleton, src], ?_, c, found, routable.2 0 c found stage⟩
  exact routable.1 _ (start_untouched (sampleEnv 0) _ 1 1) l
    (by rw [List.nil_append, loops]; exact List.mem_singleton_self l) role src

end QuantumGo.ReturnRoutability
