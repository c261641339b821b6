import Mathlib.Data.String.Basic

namespace Koval

def supportedTargets : List String := [
  "aarch64-unknown-linux-gnu",
  "armv7-unknown-linux-gnueabihf",
  "x86_64-unknown-linux-musl",
  "i686-unknown-linux-musl",
  "arm-unknown-linux-gnueabihf"
]

def isSupported (triple : String) : Bool := supportedTargets.contains triple

def linkerEnvForTarget (triple : String) : Option (String × String) :=
  if !isSupported triple then
    none
  else
    let linkerBin? :=
      match triple with
      | "aarch64-unknown-linux-gnu" => some "aarch64-linux-gnu-gcc"
      | "armv7-unknown-linux-gnueabihf" => some "arm-linux-gnueabihf-gcc"
      | "x86_64-unknown-linux-musl" => some "musl-gcc"
      | "i686-unknown-linux-musl" => some "i686-linux-musl-gcc"
      | "arm-unknown-linux-gnueabihf" => some "arm-linux-gnueabihf-gcc"
      | _ => none
    linkerBin?.map fun linkerBin => (envVar triple, linkerBin)
where
  envVar (triple : String) : String :=
    "CARGO_TARGET_"
      ++ String.ofList (triple.toList.map fun c => (if c = '-' then '_' else c).toUpper)
      ++ "_LINKER"

example :
    linkerEnvForTarget "x86_64-unknown-linux-musl"
      = some ("CARGO_TARGET_X86_64_UNKNOWN_LINUX_MUSL_LINKER", "musl-gcc") := by
  decide

end Koval
