import PhraseSql.Run

namespace PhraseSql

def setting (name : String) : IO (Option (List UInt8)) := do
  return (← IO.getEnv name).map Text.octets

end PhraseSql

def main : IO UInt32 := do
  let outcome := PhraseSql.run
    ⟨← PhraseSql.setting "HOST", ← PhraseSql.setting "PORT", ← PhraseSql.setting "RUST_LOG"⟩
    ⟨.ok (), .terminate⟩
  for line in outcome.log do
    IO.println line
  return outcome.exit
