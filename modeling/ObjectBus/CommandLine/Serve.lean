import ObjectBus.CommandLine.Hosting
import ObjectBus.CommandLine.Logging
import ObjectBus.CommandLine.Socket
import ObjectBus.Host.Outbox
import Std.Async.Signal
import Std.Async.Timer
import Std.Sync.Channel
import Std.Sync.Mutex

/-!
# Running a host

A host behind a listener. Every guest has a reader, which posts what arrives, and a writer,
which carries what the host has for it; requests reach the host one after the other.
-/

namespace ObjectBus.CommandLine

open Std.Async (Selectable)

/-- What leads to a guest. -/
structure Wiring where
  /-- Its socket. -/
  socket : Socket
  /-- What its writer still has to send. -/
  queue : Std.CloseableChannel.Sync (List Transmission)
  /-- Whether its reader is no longer wanted. -/
  unwanted : Std.CancellationToken

/-- A host at work. -/
structure Service where
  /-- The host. -/
  host : Host
  /-- What leads to its guests. -/
  guests : SortedMap PeerId Wiring

namespace Service

/-- Hand what the host has for its guests to their writers. -/
def carry (s : Service) : IO Service := do
  let mut guests := s.guests
  for o in s.host.outgoing do
    match guests.find? o.peer with
    | none => pure ()
    | some w =>
      unless o.transmissions.isEmpty do
        discard (w.queue.trySend o.transmissions)
      if o.isClosed then
        discard (attempt w.queue.close)
        w.unwanted.cancel
        guests := guests.erase o.peer
  pure ⟨s.host.forgotten, guests⟩

/-- Let the host serve a request, which may bring a new guest. -/
def request (service : Std.Mutex Service) (log : Logging) (r : HostRequest)
    (arriving : Option Wiring) : IO (Outcome HostReply) :=
  service.atomically do
    let s ← get
    let (host, reply) ← log.keep (s.host.serve r (← Instant.now))
    let guests := match reply, arriving with
      | .ok (.accepted peer), some w => s.guests.insert peer w
      | _, _ => s.guests
    set (← Service.carry ⟨host, guests⟩ : Service)
    pure reply

/-- Stop the host. -/
def stop (service : Std.Mutex Service) (log : Logging) : IO Unit :=
  service.atomically do
    let s ← get
    let host ← log.keep (s.host.stop (← Instant.now))
    set (← Service.carry { s with host := host } : Service)

end Service

/-- Send what the host has for a guest until there is no more. -/
partial def runWriter (service : Std.Mutex Service) (log : Logging) (peer : PeerId)
    (w : Wiring) : IO Unit := do
  match ← w.queue.recv with
  | none =>
    discard (attempt w.socket.shutdown.block)
    log.write (connectionNote .debug "writer stopped" [("peer", .number peer)])
  | some ts =>
    match ← attempt (sendFrames w.socket ts) with
    | .ok () => runWriter service log peer w
    | .error e =>
      discard (Service.request service log (.transportFailed peer (.io (systemMessage e))) none)
      discard (attempt w.socket.shutdown.block)
      log.write (connectionNote .debug "writer stopped" [("peer", .number peer)])

/-- Serve one guest until it is gone. -/
def runGuest (service : Std.Mutex Service) (log : Logging) (socket : Socket) : IO Unit := do
  socket.noDelay
  let remote := toString (← socket.getPeerName)
  let w : Wiring := ⟨socket, ← Std.CloseableChannel.Sync.new, ← Std.CancellationToken.new⟩
  match ← Service.request service log (.accept (.network remote)) (some w) with
  | .ok (.accepted peer) =>
    let writer ← IO.asTask (runWriter service log peer w) .dedicated
    forArrivals socket w.unwanted (fun a => do
      let r := match a with
        | .ok t => HostRequest.receive peer t
        | .error e => .transportFailed peer e
      pure (a.isOk && (← Service.request service log r none).isOk)) []
    log.write (connectionNote .debug "reader stopped"
      [("peer", .number peer), ("remote", .shown remote)])
    discard (IO.wait writer)
  | _ =>
    log.write (connectionNote .debug "host stopped before accepting"
      [("remote", .shown remote)])

/-- Accept guests until it is no longer wanted. -/
partial def acceptGuests (service : Std.Mutex Service) (log : Logging) (listener : Listener)
    (unwanted : Std.CancellationToken) (running : List (Task (Except IO.Error Unit))) :
    IO (List (Task (Except IO.Error Unit))) := do
  let accepted := Selectable.one #[.case listener.acceptSelector fun socket => pure (some socket),
    .case unwanted.selector fun _ => pure none]
  match ← attempt accepted.block with
  | .error e =>
    log.write (connectionNote .error "accept failed" [("error", .shown (systemMessage e))])
    throw e
  | .ok none =>
    log.write stoppedNote
    pure running
  | .ok (some socket) =>
    let guest ← IO.asTask (runGuest service log socket) .dedicated
    let running ← running.filterM fun task => do pure !(← IO.hasFinished task)
    acceptGuests service log listener unwanted (guest :: running)

/-- Let the host sweep again and again until it is no longer wanted. -/
partial def runSweeps (service : Std.Mutex Service) (log : Logging) (interval : UInt64)
    (unwanted : Std.CancellationToken) : IO Unit := do
  let pause := Std.Time.Millisecond.Offset.ofNat interval.toNat
  let again ← (do
    let pause ← Std.Async.Selector.sleep pause
    Selectable.one #[.case pause fun _ => pure true, .case unwanted.selector fun _ => pure false]
    : Std.Async.Async Bool).block
  if again then
    discard (Service.request service log .sweep none)
    runSweeps service log interval unwanted

/-- Run a host until the program is interrupted. -/
def serve (c : Config) (log : Logging) : IO (Except Failure Unit) := do
  match ← log.keep (c.buildBroker (← Instant.now)) with
  | .error e => pure (.error (.broker e))
  | .ok b =>
    match ← attempt (listen c.listen) with
    | .error e => pure (.error (.listen c.listen (systemMessage e)))
    | .ok listener =>
      -- An interrupt is heard from before anybody can see that the host listens.
      let interrupt ← Std.Async.Signal.Waiter.mk .sigint false
      let interrupted ← interrupt.wait
      let address := toString (← listener.getSockName)
      let output ← IO.getStdout
      output.putStrLn (listeningLine c.name address)
      output.flush
      let service ← Std.Mutex.new (Service.mk (← log.keep (Host.start b)) .empty)
      log.write (listeningNote address)
      let unwanted ← Std.CancellationToken.new
      let sweeps ← IO.asTask (runSweeps service log c.sweepInterval unwanted) .dedicated
      let guests ← IO.asTask (acceptGuests service log listener unwanted []) .dedicated
      discard interrupted.block
      output.putStrLn stoppingLine
      output.flush
      -- Nobody new comes in once the host says goodbye, and every goodbye is sent.
      unwanted.cancel
      let running ← IO.ofExcept (← IO.wait guests)
      discard (IO.wait sweeps)
      Service.stop service log
      running.forM fun task => discard (IO.wait task)
      pure (.ok ())

end ObjectBus.CommandLine
