import ConnectionBroker.Proofs.Cache.Answers
import ConnectionBroker.Proofs.Cache.Desk

/-! # Plays

A play is a cache with those who use it: a call is known by its key and its number, and a connection
that is lost stays lost. What shows of a move on a key can be told from the desk of the key.
-/

namespace ConnectionBroker

variable {σ κ γ ι π ε : Type}

/-- A builder for jobs that carry the number of their call, which it does not look at. -/
def Builder.numbered (builder : Builder σ ι π γ ε) : Builder σ (Nat × ι) π γ ε where
  start := fun job world => builder.start job.2 world
  resume := builder.resume

namespace Cache

/-! ## Moves -/

/-- What can happen to a cache and its connections. A call is known by its key and its number among
the calls made for the key. Each poll brings the world that its construction finds, so that the
outcome of a construction depends on nothing but its own call. -/
inductive Move (σ κ γ ι : Type) where
  | put (key : κ) (connection : γ)
  | get (key : κ)
  /-- The first poll of a new call. -/
  | begin (key : κ) (job : ι) (world : σ)
  /-- A later poll. -/
  | poll (key : κ) (number : Nat) (world : σ)
  | cancel (key : κ) (number : Nat)
  | remove (key : κ)
  | purge
  /-- A connection is closed, or nobody holds it any more. -/
  | lose (connection : γ)

/-- The key that a move is made on. -/
def Move.key? : Move σ κ γ ι → Option κ
  | .put key _ | .get key | .begin key _ _ | .poll key _ _ | .cancel key _ | .remove key => some key
  | .purge | .lose _ => none

/-- A cache, how many calls have been made for each key, and the connections that are lost. What is
lost is never live again. -/
structure Play (κ γ ι π : Type) where
  cache : Cache κ γ (Nat × ι) π := {}
  made : κ → Nat := fun _ => 0
  lost : List γ := []

/-- What a caller is told. -/
inductive Reply (γ ε : Type) where
  | done
  | found (connection? : Option γ)
  | answer (answer : Answer γ ε)
  /-- There is no such call, or it is over. -/
  | noCall
  | removed (existed : Bool)
  deriving DecidableEq

/-- What shows of a move on a key: what the caller is told, whether a constructor for the key
starts, and the numbers of the calls in the line of the guard after the move. -/
structure Sight (γ ε : Type) where
  reply : Reply γ ε
  starts : Bool
  line : List Nat
  /-- Whether an entry of the key, if there was one, was dead before the move: it had no live
  connection, and nobody was in line. -/
  dead : Bool
  deriving DecidableEq

/-- Two sights that differ at most in whether a removal found an entry that was dead. -/
structure Sight.Alike (sight other : Sight γ ε) : Prop where
  starts_eq : sight.starts = other.starts
  line_eq : sight.line = other.line
  dead_eq : sight.dead = other.dead
  reply_eq : sight.reply = other.reply ∨ sight.dead = true ∧
    ∃ existed existed', sight.reply = .removed existed ∧ other.reply = .removed existed'

namespace Play

variable [DecidableEq κ] [DecidableEq γ]

def live (play : Play κ γ ι π) (connection : γ) : Bool :=
  !play.lost.contains connection

/-- The pending call for a key with a number. -/
def find? (play : Play κ γ ι π) (key : κ) (number : Nat) : Option CallId :=
  ((play.cache.callsUnder key).find? fun entry => entry.2.job.1 == number).map Prod.fst

/-- The operation of the cache that a move makes. -/
def action? (play : Play κ γ ι π) : Move σ κ γ ι → Option (Action σ κ γ (Nat × ι))
  | .put key connection => some (.put play.live key connection)
  | .get key => some (.get play.live key)
  | .begin key job world => some (.begin play.live key (play.made key, job) world)
  | .poll key number world => (play.find? key number).map fun id => .poll play.live id world
  | .cancel key number => (play.find? key number).map .cancel
  | .remove key => some (.remove key)
  | .purge => some (.purge play.live)
  | .lose _ => none

def reply (builder : Builder σ ι π γ ε) (play : Play κ γ ι π) : Move σ κ γ ι → Reply γ ε
  | .get key => .found (play.cache.get? play.live key)
  | .begin key job world =>
      .answer (play.cache.begin builder.numbered play.live key (play.made key, job) world).answer
  | .poll key number world =>
      match play.find? key number with
      | some id => .answer (play.cache.poll builder.numbered play.live id world).1
      | none => .noCall
  | .cancel key number => if (play.find? key number).isSome then .done else .noCall
  | .remove key => .removed (play.cache.remove key).1
  | _ => .done

/-- The play after a move. -/
def next (builder : Builder σ ι π γ ε) (play : Play κ γ ι π) (move : Move σ κ γ ι) :
    Play κ γ ι π where
  cache := (play.action? move).elim play.cache (play.cache.act builder.numbered)
  made :=
    match move with
    | .begin key _ _ => Function.update play.made key (play.made key + 1)
    | _ => play.made
  lost :=
    match move with
    | .lose connection => connection :: play.lost
    | _ => play.lost

/-- The play after all moves of a run. -/
def after (builder : Builder σ ι π γ ε) (play : Play κ γ ι π) (moves : List (Move σ κ γ ι)) :
    Play κ γ ι π :=
  moves.foldl (next builder) play

/-- The numbers of the calls that have the guard of a key's slot or wait for it, in order. -/
def line (play : Play κ γ ι π) (key : κ) : List Nat :=
  match play.cache.slotOf? key with
  | none => []
  | some slot => (play.cache.slots slot).line.filterMap fun id =>
      (play.cache.call? id).map fun call => call.job.1

def sight (builder : Builder σ ι π γ ε) (key : κ) (play : Play κ γ ι π) (move : Move σ κ γ ι) :
    Sight γ ε where
  reply := play.reply builder move
  starts := decide ((play.action? move).bind play.cache.starts? = some key)
  line := (play.next builder move).line key
  dead := (play.cache.get? play.live key).isNone && (play.line key).isEmpty

/-- What shows of the moves on a key in a run. -/
def sights (builder : Builder σ ι π γ ε) (key : κ) (play : Play κ γ ι π) :
    List (Move σ κ γ ι) → List (Sight γ ε)
  | [] => []
  | move :: moves =>
      if move.key? = some key then
        play.sight builder key move :: sights builder key (play.next builder move) moves
      else
        sights builder key (play.next builder move) moves

end Play

/-! ## Foreign moves -/

/-- A move that is not made on the key: one on another key, a purge, or the loss of a connection
that the key never had. -/
def Move.Foreign (key : κ) (had : γ → Prop) : Move σ κ γ ι → Prop
  | .lose connection => ¬ had connection
  | move => move.key? ≠ some key

theorem Move.Foreign.ne {key other : κ} {had : γ → Prop} {move : Move σ κ γ ι}
    (h : move.Foreign key had) (hkey : move.key? = some other) : key ≠ other := by
  rintro rfl
  cases move with
  | lose connection => cases hkey
  | _ => exact h hkey

/-- A move that is not on the key is foreign, or a connection is lost. -/
theorem Move.foreign_or_lose {key : κ} (had : γ → Prop) {move : Move σ κ γ ι}
    (h : move.key? ≠ some key) : move.Foreign key had ∨ ∃ connection, move = .lose connection := by
  cases move with
  | lose connection => exact .inr ⟨connection, rfl⟩
  | _ => exact .inl h

end Cache

/-! ## The desk of a key in a play -/

namespace Desk

/-- A poll of the call with a number: what the caller is told, whether a constructor starts, and the
desk after it. -/
def poll (builder : Builder σ (Nat × ι) π γ ε) (live : γ → Bool) (desk : Desk γ (Nat × ι) π)
    (number : Nat) (world : σ) : Cache.Reply γ ε × Bool × Desk γ (Nat × ι) π :=
  match desk.line with
  | [] => (.noCall, false, desk)
  | first :: rest =>
      if first.1.1 = number then
        (.answer (desk.pollFirst builder live world).1, desk.startsFirst,
          (desk.pollFirst builder live world).2)
      else if rest.any (·.1.1 == number) then
        (.answer .pending, false, desk)
      else
        (.noCall, false, desk)

theorem poll_congr {builder : Builder σ (Nat × ι) π γ ε} {live other : γ → Bool}
    {desk : Desk γ (Nat × ι) π} {number : Nat} {world : σ}
    (h : ∀ connection, (desk.poll builder live number world).1 = .answer (.built connection) →
      live connection = other connection) :
    desk.poll builder live number world = desk.poll builder other number world := by
  unfold poll at h ⊢
  split
  · rfl
  · next first rest hline =>
      by_cases hfirst : first.1.1 = number
      · simp only [hline, hfirst, if_true] at h ⊢
        rw [pollFirst_congr fun connection hbuilt =>
          h connection (congrArg Cache.Reply.answer hbuilt)]
      · simp only [hfirst, if_false]

end Desk

namespace Cache

/-- Where no name stands twice, the entry that is found first is the only one with its name. -/
private theorem filter_ne_eq_eraseP {α β : Type} [DecidableEq α] {entries : List (α × β)}
    (hnodup : (entries.map Prod.fst).Nodup) {p : α × β → Bool} {entry : α × β}
    (hfind : entries.find? p = some entry) :
    entries.filter (fun other => other.1 != entry.1) = entries.eraseP p := by
  induction entries with
  | nil => cases hfind
  | cons first rest ih =>
      obtain ⟨hfirst, hrest⟩ := List.nodup_cons.mp hnodup
      cases hp : p first with
      | true =>
          obtain rfl : first = entry := by simpa [hp] using hfind
          rw [List.filter_cons_of_neg (by simp), List.eraseP_cons_of_pos hp, List.filter_eq_self]
          intro other hother
          have hne : other.1 ≠ first.1 := fun heq =>
            hfirst (List.mem_map.mpr ⟨other, hother, heq⟩)
          simpa using hne
      | false =>
          have hfind : rest.find? p = some entry := by simpa [hp] using hfind
          have hne : first.1 ≠ entry.1 := fun heq =>
            hfirst (List.mem_map.mpr ⟨entry, List.mem_of_find?_eq_some hfind, heq.symm⟩)
          rw [List.filter_cons_of_pos (by simpa using hne), List.eraseP_cons_of_neg (by simp [hp]),
            ih hrest hfind]

namespace Play

variable [DecidableEq κ] {play : Play κ γ ι π} {key : κ}

/-- A call that is found under a key is pending for that key. -/
theorem call?_of_find? (h : play.cache.Sound) {number : Nat} {id : CallId}
    (hfind : play.find? key number = some id) :
    ∃ call, play.cache.call? id = some call ∧ call.key = key := by
  obtain ⟨⟨_, call⟩, hentry, rfl⟩ := Option.map_eq_some_iff.mp hfind
  exact ⟨call, h.mem_callsUnder_iff.mp (List.mem_of_find?_eq_some hentry)⟩

variable [DecidableEq γ]

def desk (play : Play κ γ ι π) (key : κ) : Desk γ (Nat × ι) π :=
  play.cache.desk play.live key

theorem sound_next (h : play.cache.Sound) (builder : Builder σ ι π γ ε) (move : Move σ κ γ ι) :
    (play.next builder move).cache.Sound := by
  simp only [next]
  cases play.action? move with
  | none => exact h
  | some action => exact h.act builder.numbered action

/-- The line of the guard is the line at the desk. -/
theorem line_eq (h : play.cache.Sound) (key : κ) :
    play.line key = (play.desk key).line.map fun entry => entry.1.1 := by
  have hcall : ∀ entry ∈ play.cache.callsUnder key,
      (play.cache.call? entry.1).map (fun call => call.job.1) = some entry.2.job.1 := by
    intro entry hentry
    rw [(h.mem_callsUnder_iff.mp hentry).1]
    rfl
  simp only [line, desk, Cache.desk]
  cases hslot : play.cache.slotOf? key with
  | some slot =>
      simp only [h.line_eq_callsUnder hslot, List.filterMap_map, List.map_map]
      rw [← List.filterMap_eq_map]
      exact List.filterMap_congr hcall
  | none =>
      have hnil : play.cache.callsUnder key = [] := by
        apply List.eq_nil_iff_forall_not_mem.mpr
        rintro ⟨id, call⟩ hentry
        obtain ⟨hown, hkey⟩ := h.mem_callsUnder_iff.mp hentry
        have hsome := h.slotOf?_key hown
        rw [hkey, hslot] at hsome
        cases hsome
      rw [hnil]
      rfl

/-- The calls that can be found by their numbers are those at the desk. -/
theorem isSome_find? (play : Play κ γ ι π) (key : κ) (number : Nat) :
    (play.find? key number).isSome = (play.desk key).line.any (·.1.1 == number) := by
  rw [Bool.eq_iff_iff]
  simp [find?, desk, Cache.desk]

/-! ## Foreign moves -/

/-- A connection that is lost is found no more. -/
theorem desk_next_lose (builder : Builder σ ι π γ ε) (play : Play κ γ ι π) (connection : γ)
    (key : κ) :
    (play.next builder (.lose connection : Move σ κ γ ι)).desk key =
      ⟨(play.desk key).found.filter fun other => decide (other ≠ connection),
        (play.desk key).line⟩ := by
  simp only [desk, Cache.desk, get?_eq_filter, Option.filter_filter]
  congr 2
  funext other
  simp [live, next, Bool.and_comm]

/-- A foreign move does not show at the desk. -/
theorem desk_next_of_foreign (h : play.cache.Sound) (builder : Builder σ ι π γ ε)
    {had : γ → Prop} (hhad : ∀ connection, (play.desk key).found = some connection → had connection)
    {move : Move σ κ γ ι} (hforeign : move.Foreign key had) :
    (play.next builder move).desk key = play.desk key := by
  cases move with
  | put other connection =>
      exact (h.desk_put play.live key other connection).trans (if_neg (hforeign.ne rfl))
  | get other => rfl
  | begin other job world =>
      exact h.desk_begin_of_ne builder.numbered play.live (hforeign.ne rfl) _ world
  | poll other number world =>
      simp only [next, action?, desk]
      cases hfind : play.find? other number with
      | none => rfl
      | some id =>
          obtain ⟨call, hcall, rfl⟩ := call?_of_find? h hfind
          refine h.desk_poll_of_ne builder.numbered play.live world fun own hown => ?_
          rw [← Option.some.inj (hcall.symm.trans hown)]
          exact hforeign.ne rfl
  | cancel other number =>
      simp only [next, action?, desk]
      cases hfind : play.find? other number with
      | none => rfl
      | some id =>
          obtain ⟨call, hcall, rfl⟩ := call?_of_find? h hfind
          simp only [Option.map_some, Option.elim_some, act, Cache.cancel, hcall]
          exact h.desk_leave_of_ne hcall (hforeign.ne rfl)
  | remove other => exact (h.desk_remove play.live key other).trans (if_neg (hforeign.ne rfl))
  | purge => exact h.desk_purge play.live key
  | lose connection =>
      have hkept : (play.desk key).found.filter (fun other => decide (other ≠ connection)) =
          (play.desk key).found := by
        cases hfound : (play.desk key).found with
        | none => rfl
        | some other =>
            have hne : other ≠ connection := fun heq => hforeign (heq ▸ hhad other hfound)
            simp [Option.filter, hne]
      rw [desk_next_lose, hkept]

/-! ## Moves on the key -/

/-- What the caller is told of a move, whether a constructor for the key starts, and the desk after
the move. -/
def seen (builder : Builder σ ι π γ ε) (key : κ) (play : Play κ γ ι π) (move : Move σ κ γ ι) :
    Reply γ ε × Bool × Desk γ (Nat × ι) π :=
  (play.reply builder move,
    decide ((play.action? move).bind play.cache.starts? = some key),
    (play.next builder move).desk key)

theorem seen_poll_of_find? {number : Nat} {id : CallId} (hfind : play.find? key number = some id)
    (builder : Builder σ ι π γ ε) (world : σ) :
    play.seen builder key (.poll key number world) =
      (.answer (play.cache.poll builder.numbered play.live id world).1,
        decide (play.cache.starts? (.poll play.live id world : Action σ κ γ (Nat × ι)) = some key),
        (play.cache.poll builder.numbered play.live id world).2.1.desk play.live key) := by
  simp only [seen, reply, action?, next, hfind]
  rfl

theorem seen_poll_of_find?_eq_none {number : Nat} (hfind : play.find? key number = none)
    (builder : Builder σ ι π γ ε) (world : σ) :
    play.seen builder key (.poll key number world) = (.noCall, false, play.desk key) := by
  simp only [seen, reply, action?, next, hfind]
  rfl

/-- What shows of a poll can be told from the desk before it. -/
theorem seen_poll (h : play.cache.Sound) (builder : Builder σ ι π γ ε) (key : κ) (number : Nat)
    (world : σ) :
    play.seen builder key (.poll key number world) =
      (play.desk key).poll builder.numbered play.live number world := by
  cases hline : play.cache.callsUnder key with
  | nil =>
      have hfind : play.find? key number = none := by simp [find?, hline]
      have hdesk : (play.desk key).line = [] := by simp [desk, Cache.desk, hline]
      rw [seen_poll_of_find?_eq_none hfind, Desk.poll, hdesk]
  | cons entry rest =>
      obtain ⟨id, call⟩ := entry
      have hdesk : (play.desk key).line = (call.job, call.stage) ::
          rest.map fun entry => (entry.2.job, entry.2.stage) := by
        simp [desk, Cache.desk, hline]
      by_cases hfirst : call.job.1 = number
      · have hfind : play.find? key number = some id := by simp [find?, hline, hfirst]
        have hpoll := h.desk_poll_first builder.numbered play.live hline world
        have hstarts := h.starts_poll_first hline play.live world
        have hanswer := congrArg Prod.fst hpoll
        have hafter := congrArg Prod.snd hpoll
        dsimp only at hanswer hafter
        rw [seen_poll_of_find? hfind, hanswer, hafter, hstarts, Desk.poll, hdesk]
        simp only [hfirst, if_true, desk]
      · have hfind : play.find? key number =
            (rest.find? fun entry => entry.2.job.1 == number).map Prod.fst := by
          simp [find?, hline, hfirst]
        have hany : (rest.map fun entry => (entry.2.job, entry.2.stage)).any
            (fun entry => entry.1.1 == number) =
              (rest.find? fun entry => entry.2.job.1 == number).isSome := by
          rw [Bool.eq_iff_iff]
          simp
        cases hrest : rest.find? fun entry => entry.2.job.1 == number with
        | none =>
            rw [hrest] at hfind hany
            rw [seen_poll_of_find?_eq_none hfind, Desk.poll, hdesk]
            simp only [hfirst, hany, if_false, Option.isSome_none, Bool.false_eq_true]
        | some entry =>
            rw [hrest] at hfind hany
            have hlater := List.mem_of_find?_eq_some hrest
            rw [seen_poll_of_find? hfind, h.poll_of_mem_rest hline hlater,
              h.starts?_poll_rest hline hlater, Desk.poll, hdesk]
            simp only [hfirst, hany, if_false, Option.isSome_some, if_true]
            rfl

/-- What shows of a first poll can be told from the desk before it and the number of the call. -/
theorem seen_begin (h : play.cache.Sound) (builder : Builder σ ι π γ ε) (key : κ) (job : ι)
    (world : σ) :
    play.seen builder key (.begin key job world) =
      (.answer ((play.desk key).begin builder.numbered play.live (play.made key, job) world).1,
        (play.desk key).startsNew,
        ((play.desk key).begin builder.numbered play.live (play.made key, job) world).2) := by
  have hbegin := h.desk_begin builder.numbered play.live key (play.made key, job) world
  have hstarts := h.starts_begin play.live key (play.made key, job) world
  have hanswer := congrArg Prod.fst hbegin
  have hafter := congrArg Prod.snd hbegin
  dsimp only at hanswer hafter
  rw [desk, ← hanswer, ← hafter, ← hstarts]
  rfl

theorem seen_put (h : play.cache.Sound) (builder : Builder σ ι π γ ε) (key : κ)
    (connection : γ) :
    play.seen builder key (.put key connection : Move σ κ γ ι) =
      (.done, false, ⟨(some connection).filter play.live, (play.desk key).line⟩) := by
  have hdesk := (h.desk_put play.live key key connection).trans (if_pos rfl)
  simp only [seen, Prod.mk.injEq]
  exact ⟨rfl, rfl, hdesk⟩

/-- The call with a number leaves, wherever it stands in line. -/
theorem seen_cancel (h : play.cache.Sound) (builder : Builder σ ι π γ ε) (key : κ)
    (number : Nat) :
    play.seen builder key (.cancel key number : Move σ κ γ ι) =
      (if (play.desk key).line.any (·.1.1 == number) then .done else .noCall, false,
        ⟨(play.desk key).found, (play.desk key).line.eraseP (·.1.1 == number)⟩) := by
  have hsome := play.isSome_find? key number
  cases hfind : play.find? key number with
  | none =>
      rw [hfind] at hsome
      have hkept : (play.desk key).line.eraseP (·.1.1 == number) = (play.desk key).line :=
        List.eraseP_of_forall_not fun entry hentry hnumber =>
          Bool.false_ne_true (hsome.trans (List.any_eq_true.mpr ⟨entry, hentry, hnumber⟩))
      rw [← hsome, hkept]
      simp only [seen, reply, action?, next, hfind]
      rfl
  | some id =>
      rw [hfind] at hsome
      obtain ⟨⟨own, call⟩, hentry, heq⟩ := Option.map_eq_some_iff.mp hfind
      obtain rfl : own = id := heq
      have hcall := (h.mem_callsUnder_iff.mp (List.mem_of_find?_eq_some hentry)).1
      have hline : (play.desk key).line.eraseP (·.1.1 == number) =
          ((play.cache.callsUnder key).filter fun entry => entry.1 != own).map
            fun entry => (entry.2.job, entry.2.stage) := by
        rw [filter_ne_eq_eraseP (h.nodup_callsUnder key) hentry]
        exact List.eraseP_map ..
      rw [← hsome, hline]
      simp only [seen, reply, action?, next, hfind, Option.map_some, Option.elim_some, act,
        Cache.cancel, hcall]
      exact congrArg (fun desk => (_, _, desk)) (Sound.desk_leave play.cache _ _)

theorem seen_remove (h : play.cache.Sound) (builder : Builder σ ι π γ ε) (key : κ) :
    play.seen builder key (.remove key : Move σ κ γ ι) =
      (.removed (play.cache.remove key).1, false, ⟨none, (play.desk key).line⟩) := by
  have hdesk := (h.desk_remove play.live key key).trans (if_pos rfl)
  simp only [seen, Prod.mk.injEq]
  exact ⟨rfl, rfl, hdesk⟩

/-- What a move on the key constructs or puts there is observed after the move. -/
theorem observed?_of_built (h : play.cache.Sound) {builder : Builder σ ι π γ ε}
    {move : Move σ κ γ ι} (hkey : move.key? = some key) {connection : γ}
    (hbuilt : play.reply builder move = .answer (.built connection)) :
    (play.next builder move).cache.observed? key = some connection := by
  cases move with
  | begin own job world =>
      obtain rfl : own = key := Option.some.inj hkey
      apply h.observed?_of_begin
      rw [Reply.answer.inj hbuilt]
      rfl
  | poll own number world =>
      obtain rfl : own = key := Option.some.inj hkey
      cases hfind : play.find? own number with
      | none => simp [reply, hfind] at hbuilt
      | some id =>
          obtain ⟨call, hcall, rfl⟩ := call?_of_find? h hfind
          simp only [reply, hfind] at hbuilt
          simp only [next, action?, hfind]
          apply h.observed?_of_poll hcall
          rw [Reply.answer.inj hbuilt]
          rfl
  | cancel own number =>
      simp only [reply] at hbuilt
      split at hbuilt <;> cases hbuilt
  | _ => cases hbuilt

theorem observed?_of_put (h : play.cache.Sound) (builder : Builder σ ι π γ ε) (key : κ)
    (connection : γ) :
    (play.next builder (.put key connection : Move σ κ γ ι)).cache.observed? key =
      some connection :=
  ((h.slotFor play.live key).observed?_modifySlot (h.mem_index_slotFor play.live key)
    (fun slot => { slot with observed := some connection }) key).trans (if_pos rfl)

end Play

end Cache

end ConnectionBroker
