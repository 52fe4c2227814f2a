import Haml.Command.Run
/-! The command line program. -/

namespace Haml

def faultOf : IO.Error → FileFault
  | .noFileOrDirectory .. => .missing
  | e => .other (toString e)

def systemFiles : Files IO where
  read path := do
    match ← (IO.FS.readBinFile path).toBaseIO with
    | .error e => return .error (faultOf e)
    | .ok bytes =>
        match String.fromUTF8? bytes with
        | some text => return .ok text
        | none => return .error .notText
  isFile path := do
    match ← (do return (← (← IO.FS.realPath path).metadata).type).toBaseIO with
    | .ok .file => return true
    | _ => return false
  write path text := do
    match ← (IO.FS.writeFile path text).toBaseIO with
    | .ok () => return .ok ()
    | .error e => return .error (faultOf e)

end Haml

def main (args : List String) : IO UInt32 := do
  let outcome ← Haml.Command.run Haml.systemFiles args
  IO.print outcome.out
  IO.eprint outcome.err
  return outcome.code.toUInt32
