/-!
# UTF-8

Bytes are read as text from left to right. Where they do not form a character, the longest part that
could have started one is given up as a whole, and reading goes on behind it. `lossy` shows such a
part as a replacement character, and `strict?` refuses the bytes.
-/

namespace ScriptConsole.Text.Utf8

/-- What the first byte of a character says: how many bytes follow it, between which bounds the next
of them lies, and the leading bits of the code point. -/
structure Lead where
  more : Nat
  low : Nat
  high : Nat
  bits : Nat
deriving DecidableEq, Repr

/-- The table of first bytes. The bounds exclude forms that are longer than needed, surrogates and
code points beyond the last. -/
def lead? (b : Nat) : Option Lead :=
  if b ≤ 0x7F then some ⟨0, 0x80, 0xBF, b⟩
  else if b < 0xC2 then none
  else if b ≤ 0xDF then some ⟨1, 0x80, 0xBF, b - 0xC0⟩
  else if b = 0xE0 then some ⟨2, 0xA0, 0xBF, b - 0xE0⟩
  else if b = 0xED then some ⟨2, 0x80, 0x9F, b - 0xE0⟩
  else if b ≤ 0xEF then some ⟨2, 0x80, 0xBF, b - 0xE0⟩
  else if b = 0xF0 then some ⟨3, 0x90, 0xBF, b - 0xF0⟩
  else if b ≤ 0xF3 then some ⟨3, 0x80, 0xBF, b - 0xF0⟩
  else if b = 0xF4 then some ⟨3, 0x80, 0x8F, b - 0xF0⟩
  else none

/-- Reads the bytes that have to follow, the first of them between the given bounds, and gives the
code point, if there is one, and the bytes behind what was read. -/
def follow : (more low high bits : Nat) → List UInt8 → Option Nat × List UInt8
  | 0, _, _, bits, rest => (some bits, rest)
  | _ + 1, _, _, _, [] => (none, [])
  | more + 1, low, high, bits, b :: rest =>
    if low ≤ b.toNat ∧ b.toNat ≤ high then
      follow more 0x80 0xBF (bits * 64 + (b.toNat - 0x80)) rest
    else
      (none, b :: rest)

/-- Reads one character, or the bytes that are given up for one, behind a first byte. -/
def step (b : UInt8) (rest : List UInt8) : Option Char × List UInt8 :=
  match lead? b.toNat with
  | none => (none, rest)
  | some ⟨more, low, high, bits⟩ =>
    let (code, rest) := follow more low high bits rest
    (code.map Char.ofNat, rest)

/-- Reading on never gives back bytes. -/
theorem length_follow_le (more low high bits : Nat) (rest : List UInt8) :
    (follow more low high bits rest).2.length ≤ rest.length := by
  fun_induction follow more low high bits rest with
  | case1 => exact Nat.le_refl _
  | case2 => exact Nat.le_refl _
  | case3 _ _ _ _ _ _ _ ih => exact Nat.le_succ_of_le ih
  | case4 => exact Nat.le_refl _

/-- One step leaves at most what followed its first byte. -/
theorem length_step_le (b : UInt8) (rest : List UInt8) :
    (step b rest).2.length ≤ rest.length := by
  unfold step
  split
  · exact Nat.le_refl _
  · exact length_follow_le ..

/-- The characters that bytes hold, in order; `none` stands for a part that holds none. -/
def decode : List UInt8 → List (Option Char)
  | [] => []
  | b :: rest =>
    have := length_step_le b rest
    (step b rest).1 :: decode (step b rest).2
termination_by bytes => bytes.length
decreasing_by simp only [List.length_cons]; omega

/-- The text that bytes hold, with a replacement character for each part that holds none. -/
def lossy (bytes : List UInt8) : String :=
  String.ofList ((decode bytes).map fun c => c.getD '\uFFFD')

/-- The text that bytes hold, if all of them belong to characters. -/
def strict? (bytes : List UInt8) : Option String :=
  ((decode bytes).mapM id).map String.ofList

/-- The bytes of a text. -/
def encode (s : String) : List UInt8 :=
  s.toList.flatMap String.utf8EncodeChar

end ScriptConsole.Text.Utf8
