import ObjectBus.CommandLine.Client
import ObjectBus.CommandLine.Logging
import ObjectBus.CommandLine.Socket

/-!
# Running a client program

A client program over a socket: whatever arrives goes to the program, and what it prints and
sends goes out at once.
-/

namespace ObjectBus.CommandLine

namespace Client

/-- A program with nothing left to print or send. -/
def forgotten (c : Client) : Client :=
  { c with printed := [], guest := { c.guest with sent := [] } }

/-- Send and print what a program has for it. -/
def carry (c : Client) (socket : Socket) : IO Client := do
  match ← attempt (sendFrames socket c.guest.sent) with
  | .error e => pure (c.forgotten.fail (.broker (.transport (.io (systemMessage e)))))
  | .ok () =>
    let output ← IO.getStdout
    c.printed.forM output.putStrLn
    output.flush
    pure c.forgotten

end Client

/-- Connect a program to its host and let it run to its end. -/
def join (address : String) (c : Client) (log : Logging) : IO (Except Failure Unit) := do
  match ← attempt (connect address) with
  | .error e => pure (.error (.broker (.io (systemMessage e))))
  | .ok socket =>
    let current ← IO.mkRef c
    forArrivals socket (← Std.CancellationToken.new) (fun a => do
      let c ← log.keep ((← current.get).arrive a (← Instant.now))
      let c ← c.carry socket
      current.set c
      pure !c.hasEnded) []
    discard (attempt socket.shutdown.block)
    match (← current.get).phase with
    | .ended (some failure) => pure (.error failure)
    | _ => pure (.ok ())

end ObjectBus.CommandLine
