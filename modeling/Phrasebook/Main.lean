import Phrasebook.Command.Run

open Phrasebook

def Phrasebook.Outcome.status : Outcome → UInt32
  | .misused .help | .misused .version => 0
  | .misused _ => 2
  | .failed _ => 70
  | .finished true _ => 0
  | .finished false _ => 65
  | .aborted _ => 101

def main (words : List String) : IO UInt32 := do
  let outcome := Command.runWords words
  match outcome with
  | .misused _ => IO.eprintln "usage: eval, check, print, explain or script with their arguments"
  | .failed message => IO.eprintln ("error: " ++ message)
  | .finished _ output | .aborted output => IO.print output.written
  return outcome.status
