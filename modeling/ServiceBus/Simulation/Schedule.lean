import ServiceBus.Simulation.Calls

/-!
# Whose turn it is

Turns are taken in the order in which they came up. A turn lasts until its party has to wait; after
every action those whose wait is over line up, the longest waiting first, and then those that the
action has launched. When nobody has a turn the disk serves its oldest request, and when there is
none the clock jumps to the next deadline. The caller does not stand in line: what the disk or the
clock has ended goes on at once, what others have ended goes on when they all have had their turns.
-/

namespace ServiceBus.Simulation

/-! ### Lining up -/

/-- Lines up those whose wait is over, then those that have been launched. -/
def wake (s : Simulation) : Simulation :=
  let (up, still) := s.waiting.partition fun t => t.waits.any s.bus.holds
  { s with
    bus := { s.bus with launched := [] }
    ready := s.ready ++ up.map .resumed ++ s.bus.launched.map .launched
    waiting := still }

def suspend (s : Simulation) (t : Task) : Simulation :=
  { s with waiting := s.waiting ++ [t] }.wake

/-! ### Scripts -/

def record (s : Simulation) (p : Party) (label : String) (r : Result) : Simulation :=
  match p with
  | .caller _ => { s with answer := some r }
  | .background n _ _ => { s with answers := s.answers.insert n r }
  | .processor c _ x _ =>
    let old := (s.logs.get? c).getD []
    { s with logs := s.logs.insert c (old ++ [((s.bus.exchange x).id, label, r)]) }

def endScript (s : Simulation) (p : Party) (o : Outcome) : Simulation :=
  match p with
  | .processor _ run x awaited => { s with bus := s.bus.finish x run awaited o }.wake
  | _ => s.wake

def reason (chain : List String) : String := String.intercalate ": " chain

/-- Notes what a step was answered and goes on, unless the answer ends the script. -/
def afterStep (s : Simulation) (p : Party) (step : Step Action) (r : Result)
    (onward : Simulation → Simulation) : Simulation :=
  let s := (s.record p step.label r).wake
  match r, step.attempt with
  | .error e, true => s.endScript p (.refused (reason e.chain))
  | _, _ => onward s

/-- How an action ends the script of a party, if it does. Only processors end theirs. -/
def ending? : Party → Action → Option Outcome
  | .processor .., .refuse chain => some (.refused (reason chain))
  | .processor .., .panic message => some (.panicked message)
  | .processor .., .finish => some .returned
  | _, _ => none

def follow (s : Simulation) (p : Party) : Script → Simulation
  | [] => s.endScript p .returned
  | step :: rest =>
    match ending? p step.action with
    | some o => s.endScript p o
    | none =>
      match s.begin p step.action with
      | (s, .waiting c) => s.suspend (.party p step c rest)
      | (s, .ended r) => s.afterStep p step r fun s => follow s p rest

/-! ### Turns -/

def isPatient (s : Simulation) (p : Party) : Bool :=
  p.deadline?.all fun t => !s.bus.holds (.time t)

def resumeStep (s : Simulation) (p : Party) (step : Step Action) (c : Pending) (rest : Script) :
    Simulation :=
  match s.resume p c with
  | (s, .ended r) => s.afterStep p step r fun s => s.follow p rest
  | (s, .waiting c) =>
    if s.isPatient p then s.suspend (.party p step c rest)
    else ((s.abandon c).record p step.label (.error .blocked)).wake

def afterTracking (s : Simulation) : Bus × Turn Tracking Unit → Simulation
  | (bus, .waiting t) => { s with bus }.suspend (.tracker t)
  | (bus, .ended ()) => { s with bus }.wake

def afterClosing (s : Simulation) : Bus × Turn Closing Unit → Simulation
  | (bus, .waiting c) => { s with bus }.suspend (.closer c)
  | (bus, .ended ()) => { s with bus }.wake

def takeUp (s : Simulation) : Launch → Simulation
  | .tracker x persisted => s.afterTracking (s.bus.follow x persisted)
  | .closer q => s.afterClosing (s.bus.close q)
  | .processor run n x awaited =>
    match s.scripts[n]? with
    | some (c, script) => s.follow (.processor c run x awaited) script
    | none => s

def take (s : Simulation) : Turned → Simulation
  | .started p script => s.follow p script
  | .launched l => s.takeUp l
  | .resumed (.tracker t) => s.afterTracking (s.bus.resumeTracking t)
  | .resumed (.closer c) => s.afterClosing (s.bus.resumeClosing c)
  | .resumed (.party p step c rest) => s.resumeStep p step c rest

def deadlines (s : Simulation) : List Nat :=
  s.waiting.flatMap fun t => t.waits.filterMap fun
    | .time t => some t
    | _ => none

/-- Wakes everybody after something from outside has happened; the caller then goes first. -/
def stir (s : Simulation) : Simulation :=
  let s := s.wake
  match s.ready.partition Turned.isCaller with
  | ([], _) => s
  | (t :: callers, others) => { s with ready := callers ++ others }.take t

/-- The turns to come as they are taken, the caller's last. -/
def turns (s : Simulation) : List Turned :=
  let (callers, others) := s.ready.partition Turned.isCaller
  others ++ callers

def next? (s : Simulation) : Option Simulation :=
  match s.turns with
  | t :: rest => some ({ s with ready := rest }.take t)
  | [] =>
    if s.bus.served < s.bus.asked then
      some { s with bus := { s.bus with served := s.bus.served + 1 } }.stir
    else s.deadlines.min?.map fun t => { s with bus := { s.bus with now := t } }.stir

/-- Lets things happen until the caller has an answer. -/
def run : Nat → Simulation → Simulation
  | 0, s => s
  | n + 1, s =>
    if s.answer.isSome then s
    else
      match s.next? with
      | some s => run n s
      | none => s

/-! ### Callers -/

/-- How much may happen before the caller has an answer. -/
def horizon : Nat := 100000000

def perform (s : Simulation) (step : Step Action) : Simulation × Result :=
  let s := { s with answer := none }.follow (.caller (s.bus.now + patience)) [step]
  let s := s.run horizon
  (s, s.answer.getD (.error .blocked))

/-- Lets everything run that can, and a millisecond pass. -/
def settle (s : Simulation) : Simulation := (s.perform ⟨"settle", false, .bus (.sleep 1)⟩).1

def act (s : Simulation) (step : Step Action) : Simulation × Result :=
  let (s, r) := s.perform step
  (s.settle, r)

end ServiceBus.Simulation
