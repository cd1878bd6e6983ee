import TokenGrammar.Unicode.Lowercase
import TokenGrammar.Unicode.Recent

/-! Simple case folding: two characters are case variants of each other iff they fold to the
same character. Characters of the latest edition have no case variants.
-/

namespace TokenGrammar.Unicode

/-- The code points that fold otherwise than by their lowercase form: variant letter shapes
and letters without a capital of their own.
-/
def foldExceptions : List (Nat × Nat) :=
  [(0x00B5, 0x03BC), (0x017F, 0x0073), (0x0345, 0x03B9), (0x03C2, 0x03C3), (0x03D0, 0x03B2),
    (0x03D1, 0x03B8), (0x03D5, 0x03C6), (0x03D6, 0x03C0), (0x03F0, 0x03BA), (0x03F1, 0x03C1),
    (0x03F5, 0x03B5), (0x1C80, 0x0432), (0x1C81, 0x0434), (0x1C82, 0x043E), (0x1C83, 0x0441),
    (0x1C84, 0x0442), (0x1C85, 0x0442), (0x1C86, 0x044A), (0x1C87, 0x0463), (0x1C88, 0xA64B),
    (0x1E9B, 0x1E61), (0x1FBE, 0x03B9), (0x1FD3, 0x0390), (0x1FE3, 0x03B0), (0xFB05, 0xFB06)]

/-- The common representative of all case variants of a character. -/
def foldCase (char : Char) : Char :=
  if isRecent char then char
  else
    match foldExceptions.lookup char.toNat with
    | some image => Char.ofNat image
    | none => simpleLowercase char

/-- The code points that a run maps to the given one: at most one, because runs are
injective.
-/
def CaseRun.preimage (run : CaseRun) (image : Nat) : List Nat :=
  let code := run.first + (image - run.image)
  if run.image ≤ image && run.maps code then [code] else []

/-- All case variants of a character: its folded form and everything that folds to it. In ASCII
only letters have any.
-/
def caseVariants (char : Char) : List Char :=
  if isRecent char || char.toNat < 0x80 && !char.isAlpha then [char]
  else
    let folded := foldCase char
    let capitals := lowercaseRuns.flatMap (·.preimage folded.toNat)
    let shapes := (foldExceptions.filter (·.2 == folded.toNat)).map (·.1)
    folded :: ((capitals ++ shapes).map Char.ofNat).filter fun variant => !isRecent variant

end TokenGrammar.Unicode
