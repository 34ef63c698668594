import OcppBridge.Spool.Delivery

namespace OcppBridge.Spool

open Transaction

/-- A record being copied inside the worker's open transaction on `working`. -/
structure Transfer where
  id : Nat
  active : ActiveRecord
  working : Database
  cancelled : Bool
  deriving DecidableEq, Repr

structure Worker where
  durable : Database
  active : Option Transfer
  nextId : Nat
  deriving DecidableEq, Repr

inductive Request
  | status (ns : ExportSpoolNamespace)
  | observe (ns : ExportSpoolNamespace) (d : Durability) (highWater : Nat) (legacy : Bool)
  | commitGaps (progress : ExportSpoolGapCommit)
  | begin (request : ExportSpoolRecordBegin)
  | append (id : Nat) (chunk : BudgetedRecordChunk)
  | finish (id : Nat)
  | abort (id : Nat)
  | claim (ns : ExportSpoolNamespace) (limit maxBytes : Nat)
  | settle (ns : ExportSpoolNamespace) (report : ExportReport)

/-- What the surroundings decide while a request runs. -/
structure Conditions where
  fault : Bool
  probe : Nat → Probe
  occupied : Bool
  budget : ClaimBudget
  listening : Bool

inductive Answer
  | status (status : ExportSpoolStatus)
  | transfer (id : Nat)
  | done
  | claimed (claim : Option ExportDeliveryClaim)

/-- Worker after a request, its reply, and the rows whose delivery the request confirmed. -/
structure Outcome where
  worker : Worker
  reply : Except ExportSpoolError Answer
  confirmed : List PendingRow

def busy : ExportSpoolError := ⟨.busy, "export spool transfer in progress"⟩

def unavailable : ExportSpoolError := ⟨.unavailable, "export spool worker stopped"⟩

variable {α : Type}

def attempt (env : Conditions) (x : Except ExportSpoolError α) : Except ExportSpoolError α :=
  if env.fault then .error sqliteFailure else x

def refuse (w : Worker) (e : ExportSpoolError) : Outcome := ⟨w, .error e, []⟩

def statusReply (db : Database) (ns : ExportSpoolNamespace) : Except ExportSpoolError Answer :=
  (status db ns).map .status

def commitStatus (w : Worker) (ns : ExportSpoolNamespace) (confirmed : List PendingRow) (db : Database) : Outcome :=
  ⟨{ w with durable := db }, statusReply db ns, confirmed⟩

def handleBegin (limits : Limits) (env : Conditions) (w : Worker) (request : ExportSpoolRecordBegin) : Outcome :=
  if env.listening then
    match attempt env (begin limits env.probe w.durable request) with
    | .error e => refuse w e
    | .ok (.telemetryDropped db) => commitStatus w request.progress.space [] db
    | .ok (.transfer working active) =>
        ⟨{ w with active := some ⟨w.nextId + 1, active, working, false⟩, nextId := w.nextId + 1 },
          .ok (.transfer (w.nextId + 1)), []⟩
  else refuse w unavailable

def handleAppend (env : Conditions) (w : Worker) (t : Transfer) (chunk : BudgetedRecordChunk) : Outcome :=
  match attempt env (append t.working t.active chunk) with
  | .error e => refuse { w with active := none } e
  | .ok (working, active) => ⟨{ w with active := some { t with working, active } }, .ok .done, []⟩

def handleFinish (env : Conditions) (w : Worker) (t : Transfer) : Outcome :=
  match attempt env (finish t.working t.active env.occupied) with
  | .error e => refuse { w with active := none } e
  | .ok db => commitStatus { w with active := none } t.active.progress.space [] db

def handleIdle (limits : Limits) (env : Conditions) (w : Worker) : Request → Outcome
  | .status ns => ⟨w, statusReply w.durable ns, []⟩
  | .observe ns d highWater legacy =>
      match attempt env (observe w.durable ns d highWater legacy) with
      | .error e => refuse w e
      | .ok db => commitStatus w ns [] db
  | .commitGaps progress =>
      match attempt env (commitGaps limits w.durable progress) with
      | .error e => refuse w e
      | .ok db => commitStatus w progress.space [] db
  | .begin request => handleBegin limits env w request
  | .claim ns limit maxBytes =>
      match attempt env (claim w.durable ns limit maxBytes env.budget) with
      | .error e => refuse w e
      | .ok (db, claimed) => ⟨{ w with durable := db }, .ok (.claimed claimed), []⟩
  | .settle ns report =>
      match attempt env (settle w.durable ns report) with
      | .error e => refuse w e
      | .ok (db, confirmed) => commitStatus w ns confirmed db
  | .append _ _ | .finish _ => refuse w busy
  | .abort _ => ⟨w, .ok .done, []⟩

def handleBusy (env : Conditions) (w : Worker) (t : Transfer) : Request → Outcome
  | .append id chunk => if id = t.id then handleAppend env w t chunk else refuse w busy
  | .finish id => if id = t.id then handleFinish env w t else refuse w busy
  | .abort id => ⟨if id = t.id then { w with active := none } else w, .ok .done, []⟩
  | .status _ | .observe _ _ _ _ | .commitGaps _ | .begin _ | .claim _ _ _ | .settle _ _ => refuse w busy

def Worker.sweep (w : Worker) : Worker :=
  { w with active := w.active.filter (·.cancelled = false) }

def dispatch (limits : Limits) (env : Conditions) (w : Worker) (request : Request) : Outcome :=
  match w.sweep.active with
  | none => handleIdle limits env w.sweep request
  | some t => handleBusy env w.sweep t request

inductive Event
  | request (env : Conditions) (request : Request)
  | dropTransfer
  | crash

/-- The worker with the history of its deliveries: positions confirmed and batch ids issued. -/
structure World where
  worker : Worker
  confirmed : List (Durability × Nat)
  issued : List String

def World.init : World := ⟨⟨.empty, none, 0⟩, [], []⟩

def newBatch (old new : Database) : List String :=
  if old.delivery = none then new.delivery.toList else []

def step (limits : Limits) (w : World) : Event → World
  | .request env request =>
      let out := dispatch limits env w.worker request
      ⟨out.worker, w.confirmed ++ out.confirmed.map fun row => (row.durability, row.sequence),
        w.issued ++ newBatch w.worker.durable out.worker.durable⟩
  | .dropTransfer =>
      { w with worker := { w.worker with active := w.worker.active.map fun t => { t with cancelled := true } } }
  | .crash => { w with worker := ⟨w.worker.durable, none, 0⟩ }

def run (limits : Limits) (events : List Event) : World := events.foldl (step limits) .init

def replyAfter (limits : Limits) (events : List Event) (env : Conditions) (request : Request) :
    Except ExportSpoolError Answer :=
  (dispatch limits env (run limits events).worker request).reply

end OcppBridge.Spool
