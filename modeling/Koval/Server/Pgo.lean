import Koval.Server.State

/-!
This module contains the command lines of profile-guided optimization.
-/

namespace Koval

def instrumentFlags (jobId : String) (baseDir : Path) : List String :=
  ["-C", "profile-generate=" ++ baseDir.display ++ "/pgo/" ++ jobId]

def optimizeFlags (profdataPath : Path) : List String :=
  ["-C", "profile-use=" ++ profdataPath.display, "-C", "llvm-args=-pgo-warn-missing-function"]

namespace mergeCommand

-- The raw profiles directly in the directory; their order is the one of the listing.
def profraws (profilesDir : Path) (files : List FileRow) : List Path :=
  (files.map (·.path)).filter fun path =>
    (profilesDir.childName? path).isSome && path.extension = some (.ofString "profraw")

end mergeCommand

def mergeCommand (profilesDir outputPath : Path) (files : List FileRow) : Option Command :=
  let profraws := mergeCommand.profraws profilesDir files
  if profraws = [] then
    none
  else
    some {
      program := "llvm-profdata"
      args :=
        Path.ofString "merge" :: (profraws ++ [Path.ofString "--output", outputPath])
    }

end Koval
