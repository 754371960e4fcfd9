import Gatehouse.CommandLine.AdminClient
import Gatehouse.CommandLine.Exchange
import Gatehouse.CommandLine.Serve

/-!
# The command line

`gatehouse [--config FILE]` answers the requests that come in as lines on standard input, and
`gatehouse admin [--url URL] --key KEY COMMAND` writes the request of an admin command, reads the
line of its response, and reports on that.
-/

namespace Gatehouse.CommandLine

open Gatehouse.Text

def currentMoment : IO Moment := return Span.millis (← IO.monoMsNow)

def find (path : String) : IO (Except Config.FileProblem Bytes) := do
  try
    return .ok (← IO.FS.readBinFile path).toList
  catch
    | .noFileOrDirectory .. => return .error .missing
    | _ => return .error .directory

/-- A process ends: what it has to say is written, and its exit code is given. -/
def leave (e : Exit) : IO UInt32 := do
  (← IO.getStdout).putStr e.output
  (← IO.getStderr).putStr e.error
  return e.code.toUInt32

/-- Answers requests until there are no more lines. A line that is no request is passed over. -/
partial def answerLines (input output : IO.FS.Stream) (s : Server Float) : IO Unit := do
  let line ← input.getLine
  if line.isEmpty then return ()
  match Exchange.read? line.toList with
  | none => answerLines input output s
  | some e =>
    let fresh := uuid (← IO.rand 0 (1 <<< 122 - 1))
    let (response, s) := e.answer s (← currentMoment) fresh
    output.putStrLn (Exchange.write response)
    output.flush
    answerLines input output s

def serve (args : List String) : IO UInt32 := do
  match Serve.path? args (← IO.getEnv "GATEWAY_CONFIG") with
  | .misunderstood _ => leave Serve.usage
  | .helpWanted => leave { Serve.usage with code := 0 }
  | .understood path =>
    match Serve.start (← path.mapM find) with
    | .error e => leave e
    | .ok config =>
      let (g, _) := Gateway.ofConfig config (← currentMoment)
      let (server, _) := Server.start g (← currentMoment)
      answerLines (← IO.getStdin) (← IO.getStdout) server
      return 0

def administer (args : List String) : IO UInt32 := do
  match AdminClient.read args (← IO.getEnv "GATEWAY_ADMIN_KEY") with
  | .misunderstood _ => leave AdminClient.usage
  | .helpWanted => leave { AdminClient.usage with code := 0 }
  | .understood client =>
    match client.request with
    | none => leave AdminClient.failed
    | some request =>
      let output ← IO.getStdout
      output.putStrLn request.line
      output.flush
      match AdminClient.readReply? (← (← IO.getStdin).getLine).toList with
      | some (status, body) => leave (AdminClient.report status body)
      | none => leave AdminClient.failed

end Gatehouse.CommandLine

/-- The command line: a gateway, or an admin command when the first argument says so. -/
def main (args : List String) : IO UInt32 :=
  match args with
  | "admin" :: args => Gatehouse.CommandLine.administer args
  | args => Gatehouse.CommandLine.serve args
