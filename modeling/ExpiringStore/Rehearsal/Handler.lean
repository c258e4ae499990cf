import ExpiringStore.Rehearsal.World

/-!
# Taking the steps of operations

Each effect of an operation is answered from the stage.  A listener may itself
work on a store, and a store that stops may have to wait for a sweep under way:
both run another program, one level further down.
-/

namespace ExpiringStore.Rehearsal

/-- Runs a program for a store to its end. -/
abbrev Runner := String → Operation Number Nat → World → Except Failure Nat × World

/-! ## Listeners -/

/-- Registers and removes listeners as a script says, at a store that is set up
if it is not there yet. -/
def changeListeners (w : World) (s : ListenerScript) : World :=
  let change (ls : Listeners) : Listeners :=
    let ls := (s.removes.filterMap w.listener?).foldl Listeners.remove ls
    (s.adds.filterMap w.listener?).foldl Listeners.add ls
  if s.removes.isEmpty && s.adds.isEmpty then w
  else (w.ensureStore s.store).2.modifyStore s.store fun st =>
    { st with listeners := change st.listeners }

/-- Writes an entry under a key into a store, which is set up if it is not there
yet; the answer is the text of a failure. -/
def echo (run : Runner) (w : World) (store key : String) : Option String × World :=
  let w := (w.ensureStore store).2
  match w.store? store with
  | none => (none, w)
  | some st =>
    match run store ((fun _ => 0) <$> Operation.put (w.config st) (.str key) (.int 1)) w with
    | (.ok _, w) => (none, w)
    | (.error f, w) => (some f.text, w)

/-- Calls a listener; the answer is the text of its failure, if it fails. -/
def notify (run : Runner) (w : World) (l : ListenerId) (e : Event) : Option String × World :=
  match w.listenerScripts.lookup l.name with
  | none => (none, w)
  | some s =>
    let seen := w.see l.name e.method e.arguments
    match s.kind with
    | .silent => (none, w)
    | .putOnly =>
      match e with
      | .put _ _ => (none, seen)
      | e => (some s!"'{l.type}' object has no attribute '{e.method}'", w)
    | _ =>
      if s.failing.contains e.method then (some s!"{l.name} failed in {e.method}", seen)
      else
        let w := changeListeners seen s
        match s.kind, s.echo, e with
        | .async, some front, .evict key => echo run w s.store (front ++ key.text)
        | _, _, _ => (none, w)

/-! ## Sweepers -/

def startSweeper (w : World) (s : Sweeper Sweep) : Sweeper Sweep × World :=
  if s.running then (s, w) else (s.start, w.log s.startedEntry)

/-- The end of a sweep; its failure is only logged. -/
def endSweep (w : World) (s : Sweeper Sweep) (loop : Nat) (r : Except Failure Nat) :
    Sweeper Sweep × World :=
  match r with
  | .ok _ => (s.finish loop true, w)
  | .error f => (s.finish loop false, w.log (Sweeper.failedEntry f.text))

/-- Cancels a loop that has not ended in time. -/
def giveUp (w : World) (s : Sweeper Sweep) (loop : Nat) : Sweeper Sweep × World :=
  (s.cancel loop, (w.log s.cancelledEntry).log s.stoppedEntry)

/-- A sweeper that has been stopped.  A slow sweep goes on as if nothing had
been in its way. -/
def stopSweeper (run : Runner) (w : World) (store : String) (s : Sweeper Sweep) :
    Sweeper Sweep × World :=
  if s.isIdle then (s, w)
  else
    match s.ownLoop? with
    | none => (s.signal, w.log Sweeper.endedEntry)
    | some (i, loop) =>
      let s := s.signal
      if s.shutdownTimeout.le (.int 0) then giveUp w s i
      else
        match loop with
        | .waiting _ => (s, w.log s.stoppedEntry)
        | .sweeping ⟨_, some .hanging⟩ => giveUp w s i
        | .sweeping ⟨rest, _⟩ =>
          let (r, w) := run store rest { w with encounters := .nothing :: w.encounters }
          let (s, w) := endSweep w s i r
          (s, w.log s.stoppedEntry)

def sweeperOf (s : Settings) : Sweeper Sweep :=
  { interval := .float s.cleanupInterval, shutdownTimeout := .float s.shutdownTimeout }

/-! ## Effects -/

/-- What a change of its records makes of a store. -/
def bookkeep (s : Store) : Bookkeeping Number → Store
  | .record counter n => { s with statistics := s.statistics.record counter n }
  | .forgetSize => { s with memo := ⟨s.memo.generation + 1, none⟩ }
  | .keepSize generation count now =>
    if generation == s.memo.generation then { s with memo := ⟨generation, some (count, now)⟩ }
    else s

/-- A step at a gate that is open or not: the answer, and whether it is open afterwards. -/
def stepGate (isOpen : Bool) : GateStep → Bool × Bool
  | .look => (isOpen, isOpen)
  | .lock | .unlock => (true, isOpen)
  | .unbar => (true, true)
  | .bar => (true, false)

/-- Whether somebody is at a gate after a step there. -/
def lockAfter (locked : Bool) : GateStep → Bool
  | .lock => true
  | .unlock => false
  | .look | .unbar | .bar => locked

def stepEngine (w : World) (d : DatabaseId) : (step : EngineStep) → step.Reply × World
  | .start =>
    let db := w.database d
    if db.engine.isSome then (.ok false, w)
    else
      match Engine.ofUrl db.settings.databaseUrl with
      | .ok e => (.ok true, w.setDatabase d { db with engine := some e, memory := none })
      | .error f => (.error f, w)
  | .isOpen => ((w.database d).engine.isSome, w)
  | .dialect => ((w.database d).engine.map (·.dialect), w)
  | .hasTable => ((w.connect d).map (·.isSome), w)
  | .makeTable =>
    match w.connect d with
    | .error f => (.error f, w)
    | .ok (some _) => (.ok true, w)
    | .ok none => (.ok false, w.setTable d (some .empty))
  | .dispose => ((), w)
  | .release => ((), w.setDatabase d { w.database d with engine := none, memory := none })

/-- One attempt at a transaction, with what the script has for it. -/
def stepAttempt (w : World) (d : DatabaseId) (a : Transaction Number) :
    Except Failure a.Reply × World :=
  let (e, w) := w.nextEncounter
  w.attempt d a e

def stepSweeper (run : Runner) (w : World) (store : String) (s : Store) : SweeperStep → World
  | .start =>
    let (sweeper, w) := startSweeper w (sweeperOf s.settings)
    w.modifyStore store ({ · with sweeper := some sweeper })
  | .stop =>
    match s.sweeper with
    | none => w
    | some sweeper =>
      let (_, w) := stopSweeper run w store sweeper
      w.modifyStore store ({ · with sweeper := none })

def answerWith (run : Runner) (store : String) (e : Effect Number) (w : World) :
    e.Reply × World :=
  let s? := w.store? store
  let d := w.databaseOf store
  match e with
  | .readClock => (w.reading, w)
  | .attempt a => stepAttempt w d a
  | .pause length => ((), w.pause length)
  | .log entry => ((), w.log entry)
  | .recallSize => (s?.elim {} (·.memo), w)
  | .bookkeep b => ((), w.modifyStore store (bookkeep · b))
  | .listeners => (s?.elim [] (·.listeners.registered), w)
  | .notify l event => notify run w l event
  | .gate .store step =>
    let (r, started) := stepGate (s?.elim false (·.started)) step
    (r, w.modifyStore store fun s => { s with started, locked := lockAfter s.locked step })
  | .gate .schema step =>
    let db := w.database d
    let (r, schemaReady) := stepGate db.schemaReady step
    (r, w.setDatabase d { db with schemaReady, schemaLocked := lockAfter db.schemaLocked step })
  | .engine step => stepEngine w d step
  | .sweeper step => ((), s?.elim w (stepSweeper run w store · step))
  | .noteRunning running =>
    let startedAt := if running then some w.wall else none
    ((), w.modifyStore store ({ · with startedAt }))

/-- Answers an effect, with so many levels of programs further down. -/
def answerAt : Nat → String → (e : Effect Number) → World → e.Reply × World
  | 0 => answerWith fun _ _ w => (.ok 0, w)
  | depth + 1 => answerWith fun store p w => p.run.run (answerAt depth store) w

/-- Answers an effect.  Two levels are all that is ever needed: neither what an
echo does nor what is left of a sweep calls for another program. -/
def answer : String → (e : Effect Number) → World → e.Reply × World := answerAt 2

/-- Runs an operation for a store to its end. -/
def perform {α : Type} (store : String) (p : Operation Number α) (w : World) :
    Except Failure α × World :=
  p.run.run (answer store) w

/-! ## Operations that go on together -/

/-- Is an effect one that has to wait for another operation? -/
def isBlocked (store : String) (e : Effect Number) (w : World) : Bool :=
  match e with
  | .gate .store .lock => (w.store? store).any (·.locked)
  | .gate .schema .lock => (w.database (w.databaseOf store)).schemaLocked
  | _ => false

/-- Does an effect take its time, so that others go on before its answer is heard? -/
def takesTime : Effect Number → Bool
  | .attempt _ | .engine .hasTable | .engine .makeTable => true
  | _ => false

/-- Carries a program out until something takes its time or is blocked; what is left is to go on
once others have had their turn. -/
def runFirst {α : Type} (store : String) : Program Number α → World → Program Number α × World
  | .done a, w => (.done a, w)
  | .ask e next, w =>
    if isBlocked store e w then (.ask e next, w)
    else
      let (r, w) := answer store e w
      if takesTime e then (next r, w) else runFirst store (next r) w

/-! ## Time that passes -/

/-- Why a transaction does not go on, if the script has a delay for it. -/
def delay? (e : Effect Number) (w : World) : Option Delay :=
  match e, w.encounters with
  | .attempt _, .hanging :: _ => some .hanging
  | .attempt _, .slowness :: _ => some .slowness
  | _, _ => none

/-- Lets the interval of a sweeper's loop pass.  A sweep that is delayed stays
under way; the answer is whether there is a loop. -/
def tick (w : World) (store : String) (s : Sweeper Sweep) : Bool × Sweeper Sweep × World :=
  match s.ownLoop?, w.store? store with
  | some (i, .waiting _), some st =>
    let cleanup := Operation.cleanupExpired (w.config st)
    let s := s.expire i ⟨cleanup, none⟩
    match cleanup.run.runUntil delay? (answer store) w with
    | .finished r w => (true, endSweep w s i r)
    | .held why rest w =>
      (true, s.setLoop i (.sweeping ⟨.mk rest, some why⟩), w.nextEncounter.2)
  | some _, _ => (true, s, w)
  | none, _ => (false, s, w)

end ExpiringStore.Rehearsal
