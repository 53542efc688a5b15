import QuantumGo.HelloDispatch

/-!
Copies of the hellos of a finished handshake. The endpoint records the hello that started a
responder behind maybeSurface, and looks for a hello among the recorded ones before it reserves
its source. A copy starts another responder where the look and the record miss each other, or
where the handshake also consumed a hello that it does not record: the one behind a
HelloRetryRequest, which comes back from the inbox of the finished responder.
-/

namespace QuantumGo.FinishedHellos

open Octets Wire Tables Registry Interleaving HelloDispatch
open HalfOpen (Stage)

variable {Byte Addr : Type} [Octet Byte]

def finished (l : Loop Byte) : Bool := l.role = .responder ∧ l.phase = .complete

def completes (reply : Reply) (l : Loop Byte) : Bool :=
  l.serving ∧ l.phase = .flight ∧ reply = .answer ∧
    l.inbox.head?.map (·.typ) = some messageTypeClientFinished

def looks (d : Delivery Byte) : Bool :=
  d.stage = .entered ∧ d.recvIndex = 0 ∧ d.msg.typ = messageTypeClientHello

/-- A hello is looked for when every finished handshake that consumed it has recorded it, and no
handshake finishes while a hello that it consumed is between the look and the reservation. -/
def Careful (w : World Byte Addr) : Event Byte Addr → Prop
  | .deliver i => ∀ d ∈ w.deliveries[i]?, looks d = true → ∀ l ∈ w.loops, finished l = true →
      l.src = d.src → d.msg.body ∈ l.consumed → l.notedAt.isSome = true ∧ d.msg.body = l.first.body
  | .take i reply => ∀ l ∈ w.loops[i]?, completes reply l = true → ∀ d ∈ w.deliveries,
      d.stage = .checked → d.src = l.src → d.msg.body ∉ l.consumed
  | _ => True

instance (w : World Byte Addr) (e : Event Byte Addr) : Decidable (Careful w e) :=
  match e with
  | .deliver i => inferInstanceAs (Decidable (∀ d ∈ w.deliveries[i]?, _))
  | .take i _ => inferInstanceAs (Decidable (∀ l ∈ w.loops[i]?, _))
  | .tick _ | .close | .arrive .. | .call .. | .dial _ | .act .. | .begin _ | .timeout _ | .note _
  | .redeliver _ => .isTrue trivial

variable {new : Loop Byte}

/-! A loop that has surfaced is established. -/

section Surfaced
variable {env : Env Byte Addr} {w : World Byte Addr}

def Surfaced (l : Loop Byte) : Prop :=
  l.role = .responder → l.stage.surfaced = true → l.phase = .complete

theorem act_surfacing (i : Nat) (l : HalfOpen.Loop (List Byte)) (r : ConnRegistry (List Byte))
    (action : HalfOpen.Action) (surfaced : (HalfOpen.act i l r action).1.stage.surfaced = true) :
    l.stage.surfaced = true ∨ action = .establish := by
  cases action with
  | establish => exact .inr rfl
  | newSessionFails =>
    simp only [HalfOpen.act] at surfaced
    split at surfaced
    · cases surfaced
    · exact .inl surfaced
  | register draws =>
    simp only [HalfOpen.act] at surfaced
    split at surfaced
    · split at surfaced
      · cases surfaced
      · split at surfaced <;> cases surfaced
    · exact .inl surfaced
  | startFails | fail =>
    simp only [HalfOpen.act] at surfaced
    split at surfaced
    · cases surfaced
    · exact .inl surfaced
  | call =>
    left
    simp only [HalfOpen.act] at surfaced
    split at surfaced <;> rename_i here
    · rename_i exit
      rw [here]
      cases exit <;> first | rfl | cases surfaced
    · rename_i exit
      rw [here]
      cases exit <;> first | rfl | cases surfaced
    · dsimp only at surfaced
      split at surfaced <;> cases surfaced
    · cases surfaced
    · exact surfaced
  | teardown =>
    simp only [HalfOpen.act] at surfaced
    split at surfaced <;> exact .inl surfaced

omit [Octet Byte] in
theorem surfaced_append (all : ∀ l ∈ w.loops, Surfaced l) (fresh : new.stage = .starting) :
    ∀ l ∈ w.loops ++ [new], Surfaced l := by
  refine forall_added all fun _ surfaced => ?_
  rw [fresh] at surfaced
  cases surfaced

omit [Octet Byte] in
theorem Surfaced.queue {l : Loop Byte} (surfaced : Surfaced l) (m : InboundMsg Byte) :
    Surfaced (l.queue m) := by
  unfold Loop.queue
  split <;> exact surfaced

theorem surfaced_step (all : ∀ l ∈ w.loops, Surfaced l) (e : Event Byte Addr) :
    ∀ l ∈ (perform env w e).loops, Surfaced l := by
  have performs := perform_performs env w e
  generalize perform env w e = w' at performs ⊢
  cases performs with
  | idle | ticks | closes | arrives | times => exact all
  | calls _ _ _ _ _ _ _ routes => simpa only [routes.outside.1] using all
  | delivers i d stage after _ dispatches =>
    cases dispatches with
    | waits | checks => exact all
    | queues n l _ there =>
      exact forall_replaced all ((all l (List.mem_of_getElem? there)).queue d.msg)
    | starts => exact surfaced_append all rfl
  | dials => exact surfaced_append all rfl
  | acts i action l found allowed =>
    refine forall_replaced all fun responder surfaced => ?_
    have role : l.role = .responder := (act_same i l w.registry action).role.symm.trans responder
    rcases act_surfacing i l.toLoop w.registry action surfaced with earlier | rfl
    · exact all l (List.mem_of_getElem? found) role earlier
    · -- maybeSurface waits for the driver
      rcases of_decide_eq_true allowed with initiator | complete
      · cases role.symm.trans initiator
      · exact complete
  | begins i l found =>
    exact forall_replaced all ((all l (List.mem_of_getElem? found)).queue l.first)
  | takes i reply l _ m rest _ serving _ moved =>
    refine forall_replaced all fun _ surfaced => ?_
    have running : (l.onInbound w.clock m reply).stage = .running := by
      rw [(l.onInbound_kept w.clock m reply).1]
      exact (of_decide_eq_true serving).2.2.1
    rw [moved, running] at surfaced
    cases surfaced
  | notes i l found | redelivers i l _ _ found =>
    exact forall_replaced all (all l (List.mem_of_getElem? found))

end Surfaced

/-! The record. -/

structure History (Byte : Type) where
  src : List Byte
  hello : List Byte
  finished : Bool
  consumed : List (List Byte)
  completedAt : Option Int
  notedAt : Option Int

def history (l : Loop Byte) : History Byte :=
  ⟨l.src, l.first.body, finished l, l.consumed, l.completedAt, l.notedAt⟩

def histories (w : World Byte Addr) : List (History Byte) := w.loops.map history

def History.noted (h : History Byte) : Bool := h.notedAt.isSome

def Few (w : World Byte Addr) : Prop :=
  (histories w).countP History.finished < maxRecentHellos

/-- As long as few have finished, a recorded hello is still found or has expired, and no copy of
a finished handshake's hello is past the look unless it has expired. -/
structure Tidy (env : Env Byte Addr) (w : World Byte Addr) (h : History Byte) : Prop where
  timed : h.finished = true → h.completedAt.isSome = true
  past : ∀ t ∈ h.completedAt, h.finished = true ∧ t ≤ w.clock
  noted : ∀ t ∈ h.notedAt, h.finished = true ∧ t ≤ w.clock ∧ ∀ done ∈ h.completedAt, done ≤ t
  kept : Few w → ∀ t ∈ h.notedAt,
    (∃ exp ∈ w.recent.lookup (helloKey env h.src h.hello), t + recentHelloTTL ≤ exp) ∨
      t + recentHelloTTL < w.clock
  checked : Few w → ∀ d ∈ w.deliveries, d.stage = .checked → h.finished = true → h.src = d.src →
    d.msg.body ∈ h.consumed → ∀ t ∈ h.completedAt, t + recentHelloTTL < w.clock

structure Recorded (env : Env Byte Addr) (w : World Byte Addr) : Prop where
  sized : size w.recent ≤ (histories w).countP History.noted
  tidy : ∀ h ∈ histories w, Tidy env w h

structure Blank (h : History Byte) : Prop where
  finished : h.finished = false
  completedAt : h.completedAt = none
  notedAt : h.notedAt = none

variable {i : Nat}

section Recorded
variable {env : Env Byte Addr} {w w' : World Byte Addr}

theorem Blank.tidy {h : History Byte} (blank : Blank h) : Tidy env w h := by
  constructor <;> simp [blank.finished, blank.completedAt, blank.notedAt]

theorem Tidy.later {h : History Byte} (tidy : Tidy env w h) (few : Few w' → Few w)
    (clock : w.clock ≤ w'.clock)
    (recent : Few w' → ∀ t ∈ h.notedAt, ∀ exp ∈ w.recent.lookup (helloKey env h.src h.hello),
      t + recentHelloTTL ≤ exp →
      (∃ exp ∈ w'.recent.lookup (helloKey env h.src h.hello), t + recentHelloTTL ≤ exp) ∨
        t + recentHelloTTL < w'.clock)
    (deliveries : Few w' → ∀ d ∈ w'.deliveries, d.stage = .checked → d ∉ w.deliveries →
      h.finished = true → h.src = d.src → d.msg.body ∈ h.consumed →
      ∀ t ∈ h.completedAt, t + recentHelloTTL < w'.clock) : Tidy env w' h where
  timed := tidy.timed
  past t done := (tidy.past t done).imp_right clock.trans'
  noted t at' := (tidy.noted t at').imp_right (And.imp_left clock.trans')
  kept still t at' := by
    rcases tidy.kept (few still) t at' with ⟨exp, found, lasts⟩ | expired
    · exact recent still t at' exp found lasts
    · exact .inr (lt_of_lt_of_le expired clock)
  checked still d there stage complete src consumed t done := by
    by_cases old : d ∈ w.deliveries
    · exact lt_of_lt_of_le (tidy.checked (few still) d old stage complete src consumed t done) clock
    · exact deliveries still d there stage old complete src consumed t done

theorem Recorded.quiet (recorded : Recorded env w)
    (members : ∀ h ∈ histories w', h ∈ histories w ∨ Blank h)
    (finished : (histories w).countP History.finished ≤ (histories w').countP History.finished)
    (noted : (histories w).countP History.noted ≤ (histories w').countP History.noted)
    (recent : w'.recent = w.recent) (clock : w.clock ≤ w'.clock)
    (deliveries : ∀ d ∈ w'.deliveries, d.stage = .checked → d ∈ w.deliveries) :
    Recorded env w' := by
  refine ⟨recent ▸ recorded.sized.trans noted, fun h member => ?_⟩
  rcases members h member with old | blank
  · exact (recorded.tidy h old).later finished.trans_lt clock
      (fun _ t _ exp found lasts => .inl ⟨exp, recent ▸ found, lasts⟩)
      fun _ d there stage new => absurd (deliveries d there stage) new
  · exact blank.tidy

variable {l l' : Loop Byte}

theorem history_same (same : l.Same l') (phase : l'.phase = l.phase)
    (consumed : l'.consumed = l.consumed) (completedAt : l'.completedAt = l.completedAt)
    (notedAt : l'.notedAt = l.notedAt) : history l' = history l := by
  unfold history finished
  rw [same.role, same.src, same.first, phase, consumed, completedAt, notedAt]

theorem histories_found (found : w.loops[i]? = some l) : (histories w)[i]? = some (history l) := by
  unfold histories
  rw [List.getElem?_map, found]
  rfl

theorem histories_set (loops : w'.loops = w.loops.set i l') :
    histories w' = (histories w).set i (history l') := by
  unfold histories
  rw [loops, List.map_set]

theorem Recorded.blank (recorded : Recorded env w) (member : l ∈ w.loops)
    (running : finished l = false) : Blank (history l) := by
  have inside : history l ∈ histories w := List.mem_map_of_mem member
  refine ⟨running, Option.eq_none_iff_forall_not_mem.mpr fun t done => ?_,
    Option.eq_none_iff_forall_not_mem.mpr fun t done => ?_⟩
  · have := ((recorded.tidy _ inside).past t done).1
    exact absurd (running.symm.trans this) (by simp)
  · have := ((recorded.tidy _ inside).noted t done).1
    exact absurd (running.symm.trans this) (by simp)

theorem Recorded.replaced (recorded : Recorded env w) (found : w.loops[i]? = some l)
    (moved : history l' = history l ∨ Blank (history l) ∧ Blank (history l'))
    (loops : w'.loops = w.loops.set i l') (recent : w'.recent = w.recent)
    (clock : w'.clock = w.clock)
    (deliveries : ∀ d ∈ w'.deliveries, d.stage = .checked → d ∈ w.deliveries) :
    Recorded env w' := by
  have there := histories_found found
  have set := histories_set loops
  have same (f : History Byte → Bool) (agree : f (history l') = f (history l)) :
      (histories w).countP f ≤ (histories w').countP f := by
    have counts := countP_replaced there f (history l')
    rw [agree, ← set] at counts
    omega
  refine recorded.quiet ?_ (same _ ?_) (same _ ?_) recent clock.ge deliveries
  · intro h member
    rw [set] at member
    rcases List.mem_or_eq_of_mem_set member with old | rfl
    · exact .inl old
    · rcases moved with unchanged | ⟨-, blank⟩
      · rw [unchanged]
        exact .inl (List.mem_of_getElem? there)
      · exact .inr blank
  · rcases moved with unchanged | ⟨blank, blank'⟩
    · rw [unchanged]
    · rw [blank.finished, blank'.finished]
  · rcases moved with unchanged | ⟨blank, blank'⟩
    · rw [unchanged]
    · unfold History.noted
      rw [blank.notedAt, blank'.notedAt]

theorem Recorded.appended (recorded : Recorded env w) (blank : Blank (history new))
    (loops : w'.loops = w.loops ++ [new]) (recent : w'.recent = w.recent)
    (clock : w'.clock = w.clock)
    (deliveries : ∀ d ∈ w'.deliveries, d.stage = .checked → d ∈ w.deliveries) :
    Recorded env w' := by
  have grown : histories w' = histories w ++ [history new] := by
    unfold histories
    rw [loops, List.map_append, List.map_singleton]
  refine recorded.quiet ?_ ?_ ?_ recent clock.ge deliveries
  · intro h member
    rw [grown] at member
    rcases List.mem_append.mp member with old | last
    · exact .inl old
    · obtain rfl := List.mem_singleton.mp last
      exact .inr blank
  · rw [grown, List.countP_append]
    omega
  · rw [grown, List.countP_append]
    omega

theorem histories_replaced (loops : w'.loops = w.loops.set i l') :
    ∀ h ∈ histories w', h ∈ histories w ∨ h = history l' := by
  rw [histories_set loops]
  exact fun h member => List.mem_or_eq_of_mem_set member

/-- A handshake finishes, and no copy of its hellos is past the look. -/
theorem Recorded.finishes (recorded : Recorded env w) (found : w.loops[i]? = some l)
    (running : finished l = false)
    (now : history l' = { history l with finished := true, completedAt := some w.clock })
    (clear : ∀ d ∈ w.deliveries, d.stage = .checked → d.src = l.src → d.msg.body ∉ l.consumed)
    (loops : w'.loops = w.loops.set i l') (recent : w'.recent = w.recent)
    (clock : w'.clock = w.clock) (deliveries : w'.deliveries = w.deliveries) : Recorded env w' := by
  have there := histories_found found
  have set := histories_set loops
  have blank := recorded.blank (List.mem_of_getElem? found) running
  have counts (f : History Byte → Bool) := countP_replaced there f (history l')
  have few : Few w' → Few w := by
    intro few
    have counts := counts History.finished
    rw [← set, blank.finished, now] at counts
    unfold Few at few ⊢
    simp only [Bool.false_eq_true, if_false, if_true] at counts
    omega
  refine ⟨?_, fun h member => ?_⟩
  · have counts := counts History.noted
    have same : History.noted (history l') = History.noted (history l) := by rw [now]; rfl
    rw [← set, same] at counts
    rw [recent]
    exact recorded.sized.trans (by omega)
  rcases histories_replaced loops h member with old | rfl
  · exact (recorded.tidy h old).later few clock.ge
      (fun _ t _ exp found lasts => .inl ⟨exp, recent ▸ found, lasts⟩)
      fun _ d there _ new => absurd (deliveries ▸ there) new
  · rw [now]
    have unnoted {t : Int} : t ∉ (history l).notedAt := by simp [blank.notedAt]
    exact
      { timed := fun _ => rfl
        past := by
          rintro t ⟨⟩
          exact ⟨rfl, clock.ge⟩
        noted := fun t at' => absurd at' unnoted
        kept := fun _ t at' => absurd at' unnoted
        checked := fun _ d inside stage _ src consumed =>
          absurd consumed (clear d (deliveries ▸ inside) stage src.symm) }

theorem noteEstablished_size (source hello : List Byte) (now : Int)
    (recent : Table (List Byte) Int) :
    size (noteEstablished env source hello now recent) ≤ size recent + 1 := by
  unfold noteEstablished
  dsimp only
  split
  · have swept := size_sweep_le (fun (_ : List Byte) exp => if now > exp then none else some exp)
      recent
    split
    · omega
    · exact (size_insert_le _ _ _).trans (Nat.succ_le_succ swept)
  · exact size_insert_le _ _ _

variable {recent : Table (List Byte) Int}

/-- With room left the hello is recorded and nothing else changes. -/
theorem noteEstablished_lookup {source hello : List Byte} {now : Int}
    (room : size recent < maxRecentHellos) (key : List Byte) :
    (noteEstablished env source hello now recent).lookup key =
      if key = helloKey env source hello then some (now + recentHelloTTL)
      else recent.lookup key := by
  unfold noteEstablished
  rw [if_neg (Nat.not_le.mpr room)]
  split
  · rename_i same
    rw [same, AList.lookup_insert]
  · rename_i different
    rw [AList.lookup_insert_ne different]

/-- A handshake records its hello. -/
theorem Recorded.notes (recorded : Recorded env w) (found : w.loops[i]? = some l)
    (complete : finished l = true) (fresh : l.notedAt = none)
    (now : history l' = { history l with notedAt := some w.clock })
    (loops : w'.loops = w.loops.set i l')
    (recent : w'.recent = noteEstablished env l.src l.first.body w.clock w.recent)
    (clock : w'.clock = w.clock) (deliveries : w'.deliveries = w.deliveries) : Recorded env w' := by
  have there := histories_found found
  have inside : history l ∈ histories w := List.mem_of_getElem? there
  have set := histories_set loops
  have unnoted : History.noted (history l) = false := by
    unfold History.noted history
    rw [fresh]
    rfl
  have few : Few w' → Few w := by
    intro few
    have counts := countP_replaced there History.finished (history l')
    rw [← set, now] at counts
    unfold Few at few ⊢
    dsimp only at counts
    omega
  -- the record has room: this handshake has finished and is not in it
  have room (still : Few w') : size w.recent < maxRecentHellos := by
    have fewer : (histories w).countP History.noted < (histories w).countP History.finished := by
      refine countP_lt_of_gains ?_ inside ⟨complete, unnoted⟩
      intro other member' noted
      obtain ⟨t, at'⟩ := Option.isSome_iff_exists.mp noted
      exact ((recorded.tidy other member').noted t at').1
    exact lt_of_le_of_lt recorded.sized (fewer.trans (few still))
  have own := recorded.tidy _ inside
  refine ⟨?_, fun h member => ?_⟩
  · have counts := countP_replaced there History.noted (history l')
    have is : History.noted (history l') = true := by
      rw [now]
      rfl
    rw [← set, unnoted, is] at counts
    simp only [Bool.false_eq_true, if_false, if_true] at counts
    rw [recent]
    have added : size (noteEstablished env l.src l.first.body w.clock w.recent) ≤
        size w.recent + 1 := noteEstablished_size l.src l.first.body w.clock w.recent
    have := recorded.sized
    omega
  rcases histories_replaced loops h member with old | rfl
  · refine (recorded.tidy h old).later few clock.ge (fun still t at' exp found lasts => ?_)
      fun _ d there _ new => absurd (deliveries ▸ there) new
    rw [recent, noteEstablished_lookup (room still)]
    by_cases key : helloKey env h.src h.hello = helloKey env l.src l.first.body
    · rw [if_pos key]
      have := ((recorded.tidy h old).noted t at').2.1
      exact .inl ⟨_, rfl, by omega⟩
    · rw [if_neg key]
      exact .inl ⟨exp, found, lasts⟩
  · rw [now]
    exact
      { timed := own.timed
        past := fun t done => clock ▸ own.past t done
        noted := by
          rintro t ⟨⟩
          exact ⟨complete, clock.ge, fun done at' => (own.past done at').2⟩
        kept := by
          rintro still t ⟨⟩
          rw [recent, noteEstablished_lookup (room still)]
          exact .inl ⟨_, if_pos rfl, le_rfl⟩
        checked := fun still d there => clock ▸ own.checked (few still) d (deliveries ▸ there) }

/-- A look that finds nothing finds nothing that lasts. -/
theorem wasEstablished_cases {source hello : List Byte} {now : Int}
    {recent' : Table (List Byte) Int} {answer : Bool}
    (looked : wasEstablished env source hello now recent = (answer, recent')) :
    answer = true ∧ recent' = recent ∨
    answer = false ∧ (∀ exp ∈ recent.lookup (helloKey env source hello), exp < now) ∧
      size recent' ≤ size recent ∧
      ∀ key, key ≠ helloKey env source hello → recent'.lookup key = recent.lookup key := by
  unfold wasEstablished at looked
  cases found : recent.lookup (helloKey env source hello) with
  | none =>
    rw [found] at looked
    obtain ⟨rfl, rfl⟩ := Prod.mk.inj looked
    refine .inr ⟨rfl, ?_, le_rfl, fun _ _ => rfl⟩
    intro exp none
    cases none
  | some exp =>
    rw [found] at looked
    dsimp only at looked
    split at looked
    · rename_i expired
      obtain ⟨rfl, rfl⟩ := Prod.mk.inj looked
      refine .inr ⟨rfl, ?_, size_erase_le _ _, fun key other => AList.lookup_erase_ne other⟩
      intro exp' same
      obtain rfl := Option.some.inj same
      exact expired
    · obtain ⟨rfl, rfl⟩ := Prod.mk.inj looked
      exact .inl ⟨rfl, rfl⟩

/-- A delivery looks for its hello, which every finished handshake that consumed it has
recorded. -/
theorem Recorded.looked (recorded : Recorded env w) {d : Delivery Byte} {answer : Bool}
    (look : wasEstablished env d.src d.msg.body w.clock w.recent = (answer, recent))
    (careful : ∀ l ∈ w.loops, finished l = true → l.src = d.src → d.msg.body ∈ l.consumed →
      l.notedAt.isSome = true ∧ d.msg.body = l.first.body) (loops : w'.loops = w.loops)
    (recents : w'.recent = recent) (clock : w'.clock = w.clock)
    (deliveries : ∀ d' ∈ w'.deliveries, d'.stage = .checked →
      d' ∈ w.deliveries ∨ answer = false ∧ d'.src = d.src ∧ d'.msg = d.msg) : Recorded env w' := by
  have same : histories w' = histories w := by
    unfold histories
    rw [loops]
  have few : Few w' → Few w := by
    unfold Few
    rw [same]
    exact id
  have spec := wasEstablished_cases look
  refine ⟨?_, fun h member => ?_⟩
  · rw [same, recents]
    rcases spec with ⟨-, rfl⟩ | ⟨-, -, smaller, -⟩
    · exact recorded.sized
    · exact smaller.trans recorded.sized
  rw [same] at member
  have tidy := recorded.tidy h member
  refine tidy.later few clock.ge (fun still t at' exp found lasts => ?_)
    fun still d' inside stage new complete src consumed t done => ?_
  · rw [recents, clock]
    rcases spec with ⟨-, rfl⟩ | ⟨-, expires, -, others⟩
    · exact .inl ⟨exp, found, lasts⟩
    · by_cases key : helloKey env h.src h.hello = helloKey env d.src d.msg.body
      · rw [key] at found
        exact .inr (lt_of_le_of_lt lasts (expires exp found))
      · rw [others _ key]
        exact .inl ⟨exp, found, lasts⟩
  · obtain ⟨missed, source, message⟩ := (deliveries d' inside stage).resolve_left new
    rcases spec with ⟨found, -⟩ | ⟨-, expires, -⟩
    · exact absurd (missed.symm.trans found) (by simp)
    · obtain ⟨l, there, rfl⟩ := List.mem_map.mp member
      rw [source] at src
      rw [message] at consumed
      obtain ⟨noted, first⟩ := careful l there complete src consumed
      obtain ⟨t', at'⟩ := Option.isSome_iff_exists.mp noted
      have order := (tidy.noted t' at').2.2 t done
      rcases tidy.kept (few still) t' at' with ⟨exp, found, lasts⟩ | expired
      · change exp ∈ w.recent.lookup (helloKey env l.src l.first.body) at found
        rw [show l.src = d.src from src, ← first] at found
        have := expires exp found
        omega
      · omega

/-- What a message makes of the history of a handshake. -/
def Heeds (now : Int) (m : InboundMsg Byte) (reply : Reply) (l l' : Loop Byte) : Prop :=
  history l' = history l ∨
  (finished l' = false ∧ l'.completedAt = l.completedAt ∧ l'.notedAt = l.notedAt) ∨
  ((l.phase = .flight ∧ reply = .answer ∧ m.typ = messageTypeClientFinished) ∧
    history l' = { history l with finished := true, completedAt := some now })

theorem receive_heeds (serving : l.serving = true) (now : Int) (m : InboundMsg Byte) (reply : Reply)
    (rest : List (InboundMsg Byte)) :
    Heeds now m reply l { l.receive now m reply with inbox := rest } := by
  have role : l.role = .responder := (of_decide_eq_true serving).1
  unfold Loop.receive Loop.consume
  cases phase : l.phase with
  | hello =>
    dsimp only
    split
    · cases reply with
      | refuse => exact .inl rfl
      | retry | answer => exact .inr (.inl ⟨by simp [finished], rfl, rfl⟩)
    · exact .inl rfl
  | retried firstClientHello =>
    dsimp only
    split
    · exact .inr (.inl ⟨by simp [finished], rfl, rfl⟩)
    · exact .inl rfl
  | flight =>
    dsimp only
    split
    · rename_i completing
      refine .inr (.inr ⟨⟨phase, completing.2, completing.1⟩, ?_⟩)
      simp [history, finished, role]
    · exact .inl rfl
  | complete => exact .inl rfl

theorem onInbound_heeds (serving : l.serving = true) (now : Int) (m : InboundMsg Byte)
    (reply : Reply) (rest : List (InboundMsg Byte)) :
    Heeds now m reply l { l.onInbound now m reply with inbox := rest } := by
  unfold Loop.onInbound Loop.hear
  split
  · exact receive_heeds (l := { l with peerIndex := m.sender }) serving now m reply rest
  · exact receive_heeds serving now m reply rest

theorem Recorded.step (recorded : Recorded env w) (surfaced : ∀ l ∈ w.loops, Surfaced l)
    {e : Event Byte Addr} (careful : Careful w e) : Recorded env (perform env w e) := by
  have idle {w' : World Byte Addr} (loops : w'.loops = w.loops) (recent : w'.recent = w.recent)
      (clock : w.clock ≤ w'.clock)
      (deliveries : ∀ d ∈ w'.deliveries, d.stage = .checked → d ∈ w.deliveries) :
      Recorded env w' := by
    have same : histories w' = histories w := by
      unfold histories
      rw [loops]
    refine recorded.quiet ?_ ?_ ?_ recent clock deliveries
    · rw [same]
      exact fun _ member => .inl member
    · rw [same]
    · rw [same]
  have performs := perform_performs env w e
  generalize perform env w e = w' at performs ⊢
  cases performs with
  | idle => exact recorded
  | ticks => exact idle rfl rfl (by dsimp only; omega) fun _ member _ => member
  | closes | arrives | times => exact idle rfl rfl le_rfl fun _ member _ => member
  | calls _ _ _ _ _ _ _ routes =>
    obtain ⟨loops, recent, clock, deliveries⟩ := routes.outside
    refine idle loops recent clock.ge fun d member stage => ?_
    rcases deliveries d member with old | entered
    · exact old
    · cases entered.symm.trans stage
  | delivers i d stage after found dispatches =>
    have others (unchecked : stage ≠ .checked) :
        ∀ d' ∈ w.deliveries.set i { d with stage }, d'.stage = .checked → d' ∈ w.deliveries :=
      forall_replaced (fun _ old _ => old) fun checked => absurd checked unchecked
    cases dispatches with
    | waits _ unchecked => exact idle rfl rfl le_rfl (others unchecked)
    | checks answer recent entered bootstrap hello look =>
      have looking : looks d = true := by simp [looks, entered, bootstrap, hello]
      refine recorded.looked look (careful d found looking) rfl rfl rfl ?_
      refine forall_replaced (fun _ old _ => .inl old) fun checked => ?_
      cases answer with
      | false => exact .inr ⟨rfl, rfl, rfl⟩
      | true => cases checked
    | queues n l _ there unchecked =>
      refine recorded.replaced there (.inl ?_) rfl rfl rfl (others unchecked)
      unfold Loop.queue
      split <;> rfl
    | starts registry checked entries =>
      exact recorded.appended ⟨by simp [history, finished, newLoop], rfl, rfl⟩ rfl rfl rfl
        (others (by simp))
  | dials =>
    exact recorded.appended ⟨by simp [history, finished, newLoop], rfl, rfl⟩ rfl rfl rfl
      fun _ member _ => member
  | acts i action l found =>
    have same := history_same (act_same i l w.registry action) rfl rfl rfl rfl
    exact recorded.replaced found (.inl same) rfl rfl rfl fun _ member _ => member
  | begins i l found =>
    refine recorded.replaced found (.inl ?_) rfl rfl rfl fun _ member _ => member
    unfold Loop.queue
    split <;> rfl
  | takes i reply l _ m rest found serving inbox moved =>
    have running : finished l = false := by
      have := (of_decide_eq_true serving).2.2.2
      simp [finished, this]
    subst moved
    rcases onInbound_heeds serving w.clock m reply rest with
      same | ⟨unfinished, completedAt, notedAt⟩ | ⟨⟨phase, answer, typ⟩, now⟩
    · exact recorded.replaced found (.inl same) rfl rfl rfl fun _ member _ => member
    · have blank := recorded.blank (List.mem_of_getElem? found) running
      refine recorded.replaced found (.inr ⟨blank, unfinished, ?_, ?_⟩) rfl rfl rfl
        fun _ member _ => member
      · exact completedAt.trans blank.completedAt
      · exact notedAt.trans blank.notedAt
    · have completing : completes reply l = true := by
        simp [completes, serving, phase, answer, inbox, typ]
      exact recorded.finishes found running now (careful l found completing) rfl rfl rfl rfl
  | notes i l found role stage fresh =>
    have complete : l.phase = .complete :=
      surfaced l (List.mem_of_getElem? found) role (by rw [stage]; rfl)
    exact recorded.notes found (by simp [finished, role, complete]) fresh rfl rfl rfl rfl rfl
  | redelivers i l m rest found _ _ deliveries new =>
    have same : history ({ l with inbox := rest } : Loop Byte) = history l := rfl
    refine recorded.replaced found (.inl same) rfl rfl rfl fun d member checked => ?_
    rcases new d member with old | rfl
    · exact old
    · cases checked

theorem recorded_run {option cores : Int} {events : List (Event Byte Addr)}
    (careful : Along (perform env) Careful events (start option cores)) :
    Recorded env (run (perform env) events (start option cores)) := by
  have kept : ∀ w e, Careful w e → Recorded env w ∧ (∀ l ∈ w.loops, Surfaced l) →
      Recorded env (perform env w e) ∧ ∀ l ∈ (perform env w e).loops, Surfaced l := by
    rintro w e careful ⟨recorded, surfaced⟩
    exact ⟨recorded.step surfaced careful, surfaced_step surfaced e⟩
  refine (invariant_run kept careful ⟨⟨?_, ?_⟩, ?_⟩).1
  all_goals simp [start, histories, size]

/-- Only a delivery that is past the look starts a responder. -/
theorem started_by (e : Event Byte Addr) (responder : new.role = .responder)
    (grown : (perform env w e).loops = w.loops ++ [new]) :
    ∃ d ∈ w.deliveries, d.stage = .checked ∧ d.src = new.src ∧ d.msg = new.first := by
  have same {loops : List (Loop Byte)} (length : loops.length = w.loops.length) :
      loops ≠ w.loops ++ [new] := by
    intro grown
    rw [grown, List.length_append, List.length_singleton] at length
    omega
  have performs := perform_performs env w e
  generalize perform env w e = w' at performs grown
  cases performs with
  | delivers i d stage after found dispatches =>
    cases dispatches with
    | waits | checks => exact absurd grown (same rfl)
    | queues => exact absurd grown (same List.length_set)
    | starts registry checked =>
      obtain rfl := List.singleton_inj.mp (List.append_cancel_left grown)
      exact ⟨d, List.mem_of_getElem? found, checked, rfl, rfl⟩
  | dials =>
    obtain rfl := List.singleton_inj.mp (List.append_cancel_left grown)
    cases responder
  | calls _ _ _ _ _ _ _ routes => exact absurd (routes.outside.1.symm.trans grown) (same rfl)
  | idle | ticks | closes | arrives | times => exact absurd grown (same rfl)
  | acts | begins | takes | notes | redelivers => exact absurd grown (same List.length_set)

end Recorded

/-- In a careful run with few finished handshakes, a responder is started with a hello that a
finished handshake of its source consumed only when recentHelloTTL has passed since. -/
theorem finished_hello_rests (env : Env Byte Addr) (option cores : Int)
    (events : List (Event Byte Addr)) (e : Event Byte Addr)
    (careful : Along (perform env) Careful events (start option cores))
    (few : (run (perform env) events (start option cores)).loops.countP finished < maxRecentHellos)
    (new : Loop Byte) (responder : new.role = .responder)
    (started : (perform env (run (perform env) events (start option cores)) e).loops =
      (run (perform env) events (start option cores)).loops ++ [new]) (l : Loop Byte)
    (member : l ∈ (run (perform env) events (start option cores)).loops)
    (complete : finished l = true) (source : l.src = new.src) (copy : new.first.body ∈ l.consumed) :
    ∃ t ∈ l.completedAt,
      t + recentHelloTTL < (run (perform env) events (start option cores)).clock := by
  have recorded := recorded_run careful
  obtain ⟨d, inside, checked, src, msg⟩ := started_by e responder started
  have counted : Few (run (perform env) events (start option cores)) := by
    unfold Few histories
    rw [List.countP_map]
    exact few
  have there : history l ∈ histories (run (perform env) events (start option cores)) :=
    List.mem_map_of_mem member
  obtain ⟨t, done⟩ := Option.isSome_iff_exists.mp ((recorded.tidy _ there).timed complete)
  refine ⟨t, done, (recorded.tidy _ there).checked counted d inside checked complete
    (source.trans src.symm) ?_ t done⟩
  rw [msg]
  exact copy

/-! Runs of a client at one address: its hello is `[1]`, the one behind a retry `[2]`, and its
ClientFinished `[3]`. The responder takes index 9. -/

section Samples
open Symbolic

def receives (i : Nat) (data : List Letter) : List (Event Letter Nat) :=
  .arrive 5 data :: List.replicate 4 (.call i 0 ⟨0, 0, ⟨0, 0⟩⟩)

def opening (reply : Reply) : List (Event Letter Nat) :=
  receives 0 (sampleFrame 0 7 messageTypeClientHello 1) ++
    [.deliver 0, .deliver 0, .act 0 (.register fun _ => some 9), .begin 0, .take 0 reply]

def finishing : List (Event Letter Nat) :=
  [.take 0 .answer, .act 0 .establish, .act 0 .call, .act 0 .call, .note 0]

def retriedRun : List (Event Letter Nat) :=
  opening .retry ++
    (receives 1 (sampleFrame 9 7 messageTypeClientHello 2) ++
      [.deliver 1, .deliver 1, .take 0 .answer]) ++
    (receives 2 (sampleFrame 9 7 messageTypeClientFinished 3) ++ [.deliver 2, .deliver 2]) ++
    (receives 3 (sampleFrame 9 7 messageTypeClientHello 2) ++ [.deliver 3, .deliver 3]) ++
    finishing ++ [.redeliver 0, .deliver 4]

def racedRun : List (Event Letter Nat) :=
  opening .answer ++ (receives 1 (sampleFrame 0 7 messageTypeClientHello 1) ++ [.deliver 1]) ++
    (receives 2 (sampleFrame 9 7 messageTypeClientFinished 3) ++ [.deliver 2, .deliver 2]) ++
    finishing

def expiredRun : List (Event Letter Nat) :=
  opening .answer ++
    (receives 1 (sampleFrame 9 7 messageTypeClientFinished 3) ++ [.deliver 1, .deliver 1]) ++
    finishing ++ [.tick 64000000001] ++
    (receives 2 (sampleFrame 0 7 messageTypeClientHello 1) ++ [.deliver 2])

def after (events : List (Event Letter Nat)) : World Letter Nat :=
  run (perform (sampleEnv 512)) events (start 1024 1)

theorem finished_hello_rests_expired :
    (perform (sampleEnv 512) (after expiredRun) (.deliver 2)).loops = (after expiredRun).loops ++
      [newLoop .responder [.byte 5] ⟨messageTypeClientHello, [.byte 1], 7⟩] ∧
    ∀ l ∈ (after expiredRun).loops, finished l = true → l.src = [.byte 5] → [.byte 1] ∈ l.consumed →
      ∃ t ∈ l.completedAt, t + recentHelloTTL < (after expiredRun).clock := by
  have started : (perform (sampleEnv 512) (after expiredRun) (.deliver 2)).loops =
      (after expiredRun).loops ++
        [newLoop .responder [.byte 5] ⟨messageTypeClientHello, [.byte 1], 7⟩] := by decide +kernel
  refine ⟨started, fun l member complete source copy => ?_⟩
  exact finished_hello_rests (sampleEnv 512) 1024 1 expiredRun (.deliver 2) (by decide +kernel)
    (by decide +kernel) _ rfl started l member complete source copy

/-- One handshake has just finished, and each run goes on with a second responder: for the second
hello of the first one, and for its only hello. -/
theorem finished_hello_restarts :
    (after retriedRun).loops.map (fun l => (finished l, l.src, l.consumed, l.completedAt)) =
      [(true, [.byte 5], [[.byte 1], [.byte 2]], some 0)] ∧
    (after retriedRun).clock = 0 ∧
    (perform (sampleEnv 512) (after retriedRun) (.deliver 4)).loops = (after retriedRun).loops ++
      [newLoop .responder [.byte 5] ⟨messageTypeClientHello, [.byte 2], 7⟩] ∧
    (after racedRun).loops.map (fun l => (finished l, l.src, l.consumed, l.completedAt)) =
      [(true, [.byte 5], [[.byte 1]], some 0)] ∧
    (after racedRun).clock = 0 ∧
    (perform (sampleEnv 512) (after racedRun) (.deliver 1)).loops = (after racedRun).loops ++
      [newLoop .responder [.byte 5] ⟨messageTypeClientHello, [.byte 1], 7⟩] := by
  refine ⟨?_, ?_, ?_, ?_, ?_, ?_⟩ <;> decide +kernel

end Samples

end QuantumGo.FinishedHellos
