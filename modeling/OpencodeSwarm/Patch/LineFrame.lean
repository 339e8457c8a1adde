/-
  OpencodeSwarm.Patch.LineFrame

  What a patch leaves alone: the lines outside the matched ranges keep their text, and
  where the file has one kind of line end they keep that as well.
-/
import Mathlib.Data.List.Infix
import OpencodeSwarm.Patch.ApplyPatch

namespace OpencodeSwarm

open Js

/-! ## Where the lines come from -/

section Origins

variable {original : List JsString}

variable {tagged : List (Option Nat × JsString)}

variable {options : Option ApplyHunksOptions}

end Origins

/-! ## Lines with their ends -/

section Chunks

end Chunks

/-! ### Carriage returns -/

section Returns

variable {a : CodeUnit}

variable {line : JsString}

end Returns

/-! ## The written text -/

section Written

variable {content : JsString} {appliedLines : List JsString}

end Written

/-! ## A patched file -/

variable {host : PatchHost} {files : OrderedMap JsString JsString} {fileDiff : ParsedFileDiff}
  {targetPath fullPath : JsString} {settings : PatchSettings}

end OpencodeSwarm
