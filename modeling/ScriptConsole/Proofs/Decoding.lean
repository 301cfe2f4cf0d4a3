import Mathlib
import ScriptConsole.Proofs.Spelling

/-!
# Reading the bytes of a text

The bytes of a text are read back as the text (`strict?_encode`). When they are cut somewhere, at most
the last character is cut short, and what is left of it is read as one part that holds no character
(`decode_of_isCut`). A byte of an ASCII character belongs to no other character: it can be added and
taken away without a change to what stands before it (`decode_concat`, `exists_encode_of_ascii`).
-/

namespace ScriptConsole.Text.Utf8

/-- So many bytes follow the first byte of a character, the first of them between these bounds. -/
def Completes : (more low high : Nat) → List UInt8 → Prop
  | 0, _, _, bytes => bytes = []
  | _ + 1, _, _, [] => False
  | more + 1, low, high, byte :: bytes =>
    low ≤ byte.toNat ∧ byte.toNat ≤ high ∧ Completes more 0x80 0xBF bytes

/-- The code point with these leading bits and these bytes behind the first. -/
def codePoint (bits : Nat) (bytes : List UInt8) : Nat :=
  bytes.foldl (fun bits byte => bits * 64 + (byte.toNat - 0x80)) bits

lemma follow_append {more low high : Nat} {bytes : List UInt8} (h : Completes more low high bytes)
    (bits : Nat) (rest : List UInt8) :
    follow more low high bits (bytes ++ rest) = (some (codePoint bits bytes), rest) := by
  induction more generalizing low high bits bytes with
  | zero =>
    obtain rfl : bytes = [] := h
    rw [List.nil_append, follow]
    rfl
  | succ more ih =>
    cases bytes with
    | nil => exact absurd h id
    | cons byte bytes =>
      obtain ⟨hlow, hhigh, hmore⟩ := h
      rw [List.cons_append, follow, if_pos ⟨hlow, hhigh⟩, ih hmore, codePoint, codePoint,
        List.foldl_cons]

/-- Where bytes are missing, reading ends without a character. -/
lemma follow_of_missing {more low high : Nat} {bytes missing : List UInt8}
    (h : Completes more low high (bytes ++ missing)) (hmissing : missing ≠ []) (bits : Nat) :
    follow more low high bits bytes = (none, []) := by
  induction more generalizing low high bits bytes with
  | zero => exact absurd (List.append_eq_nil_iff.mp h).2 hmissing
  | succ more ih =>
    cases bytes with
    | nil => rfl
    | cons byte bytes =>
      obtain ⟨hlow, hhigh, hmore⟩ := h
      rw [follow, if_pos ⟨hlow, hhigh⟩, ih hmore]

/-- The bytes are a first byte that announces others, and these, and together they hold the code
point. -/
def Spells (code : Nat) (bytes : List UInt8) : Prop :=
  ∃ byte rest lead, bytes = byte :: rest ∧ lead? byte.toNat = some lead ∧
    Completes lead.more lead.low lead.high rest ∧ codePoint lead.bits rest = code

lemma toNat_ofNat_of_lt {n : Nat} (h : n < 256) : (UInt8.ofNat n).toNat = n := by
  rw [UInt8.toNat_ofNat', Nat.mod_eq_of_lt h]

/-- A byte with six bits of a code point. -/
lemma toNat_later (n : Nat) : (UInt8.ofNat (n % 64 + 128)).toNat = n % 64 + 128 :=
  toNat_ofNat_of_lt (by omega)

lemma spells_two {v : Nat} (hlow : 128 ≤ v) (hhigh : v ≤ 2047) :
    Spells v [UInt8.ofNat (v / 64 % 32 + 192), UInt8.ofNat (v % 64 + 128)] := by
  refine ⟨_, _, ⟨1, 0x80, 0xBF, v / 64⟩, rfl, ?_, ?_, ?_⟩
  · have hbits : v / 64 % 32 + 192 - 0xC0 = v / 64 := by omega
    rw [toNat_ofNat_of_lt (by omega), lead?, if_neg (by omega), if_neg (by omega), if_pos (by omega),
      hbits]
  · simp only [Completes, toNat_later, and_true]
    omega
  · simp only [codePoint, List.foldl_cons, List.foldl_nil, toNat_later]
    omega

/-- The bounds of the second byte leave out forms that are too long, and the surrogates. -/
lemma spells_three {v : Nat} (hlow : 2048 ≤ v) (hhigh : v ≤ 65535)
    (hvalid : v < 0xD800 ∨ 0xDFFF < v) :
    Spells v [UInt8.ofNat (v / 4096 % 16 + 224), UInt8.ofNat (v / 64 % 64 + 128),
      UInt8.ofNat (v % 64 + 128)] := by
  refine ⟨_, _, ⟨2, if v / 4096 = 0 then 0xA0 else 0x80, if v / 4096 = 13 then 0x9F else 0xBF,
    v / 4096⟩, rfl, ?_, ?_, ?_⟩
  · have hbits : v / 4096 % 16 + 224 - 0xE0 = v / 4096 := by omega
    rw [toNat_ofNat_of_lt (by omega), lead?, if_neg (by omega), if_neg (by omega), if_neg (by omega)]
    simp only [hbits]
    split_ifs <;> first | omega | rfl
  · simp only [Completes, toNat_later, and_true]
    split_ifs <;> omega
  · simp only [codePoint, List.foldl_cons, List.foldl_nil, toNat_later]
    omega

/-- The bounds of the second byte leave out forms that are too long, and what lies beyond the last code
point. -/
lemma spells_four {v : Nat} (hlow : 65536 ≤ v) (hhigh : v < 0x110000) :
    Spells v [UInt8.ofNat (v / 262144 % 8 + 240), UInt8.ofNat (v / 4096 % 64 + 128),
      UInt8.ofNat (v / 64 % 64 + 128), UInt8.ofNat (v % 64 + 128)] := by
  refine ⟨_, _, ⟨3, if v / 262144 = 0 then 0x90 else 0x80, if v / 262144 = 4 then 0x8F else 0xBF,
    v / 262144⟩, rfl, ?_, ?_, ?_⟩
  · have hbits : v / 262144 % 8 + 240 - 0xF0 = v / 262144 := by omega
    rw [toNat_ofNat_of_lt (by omega), lead?, if_neg (by omega), if_neg (by omega), if_neg (by omega),
      if_neg (by omega), if_neg (by omega), if_neg (by omega)]
    simp only [hbits]
    split_ifs <;> first | omega | rfl
  · simp only [Completes, toNat_later, and_true]
    split_ifs <;> omega
  · simp only [codePoint, List.foldl_cons, List.foldl_nil, toNat_later]
    omega

lemma spells_encodeChar (c : Char) : Spells c.toNat (String.utf8EncodeChar c) := by
  have hvalid : c.val.toNat < 0xD800 ∨ 0xDFFF < c.val.toNat ∧ c.val.toNat < 0x110000 := c.valid
  change Spells c.val.toNat _
  unfold String.utf8EncodeChar
  dsimp only
  generalize c.val.toNat = v at hvalid
  by_cases hone : v ≤ 127
  · rw [if_pos hone]
    refine ⟨_, _, ⟨0, 0x80, 0xBF, v⟩, rfl, ?_, rfl, rfl⟩
    rw [toNat_ofNat_of_lt (by omega), lead?, if_pos hone]
  rw [if_neg hone]
  by_cases htwo : v ≤ 2047
  · rw [if_pos htwo]
    exact spells_two (by omega) htwo
  rw [if_neg htwo]
  by_cases hthree : v ≤ 65535
  · rw [if_pos hthree]
    exact spells_three (by omega) hthree (by omega)
  · rw [if_neg hthree]
    exact spells_four (by omega) (by omega)

lemma decode_cons (byte : UInt8) (bytes : List UInt8) :
    decode (byte :: bytes) = (step byte bytes).1 :: decode (step byte bytes).2 := by
  rw [decode]

/-- A character is read from its bytes, whatever follows them. -/
lemma decode_encodeChar_append (c : Char) (rest : List UInt8) :
    decode (String.utf8EncodeChar c ++ rest) = some c :: decode rest := by
  obtain ⟨byte, bytes, lead, hbytes, hlead, hcompletes, hcode⟩ := spells_encodeChar c
  have hstep : step byte (bytes ++ rest) = (some c, rest) := by
    rw [step, hlead]
    dsimp only
    rw [follow_append hcompletes, hcode, Option.map_some, Char.ofNat_toNat]
  rw [hbytes, List.cons_append, decode_cons, hstep]

lemma decode_flatMap_append (cs : List Char) (rest : List UInt8) :
    decode (cs.flatMap String.utf8EncodeChar ++ rest) = cs.map some ++ decode rest := by
  induction cs with
  | nil => rfl
  | cons c cs ih =>
    rw [List.flatMap_cons, List.append_assoc, decode_encodeChar_append, ih]
    rfl

lemma decode_encode (s : String) : decode (encode s) = s.toList.map some := by
  have happend := decode_flatMap_append s.toList []
  rw [List.append_nil, decode, List.append_nil] at happend
  exact happend

/-- Nothing of a text is replaced when its bytes are read. -/
lemma lossy_encode (s : String) : lossy (encode s) = s := by
  rw [lossy, decode_encode, List.map_map]
  change String.ofList (s.toList.map id) = s
  rw [List.map_id, String.ofList_toList]

lemma strict?_encode (s : String) : strict? (encode s) = some s := by
  have hall (cs : List Char) : (cs.map some).mapM id = some cs := by
    induction cs with
    | nil => rfl
    | cons c cs ih =>
      rw [List.map_cons, List.mapM_cons, ih]
      rfl
  rw [strict?, decode_encode, hall, Option.map_some, String.ofList_toList]

/-! ### Bytes that are cut -/

/-- Some of the bytes of a character, from the first on, but not all of them. -/
def IsCut (bytes : List UInt8) : Prop :=
  ∃ c missing, String.utf8EncodeChar c = bytes ++ missing ∧ bytes ≠ [] ∧ missing ≠ []

lemma decode_of_isCut {bytes : List UInt8} (h : IsCut bytes) : decode bytes = [none] := by
  obtain ⟨c, missing, hbytes, hne, hmissing⟩ := h
  obtain ⟨byte, rest, lead, hspelled, hlead, hcompletes, -⟩ := spells_encodeChar c
  obtain ⟨first, before, rfl⟩ := List.exists_cons_of_ne_nil hne
  rw [hspelled, List.cons_append] at hbytes
  obtain ⟨rfl, rfl⟩ := List.cons.inj hbytes
  have hstep : step byte before = (none, []) := by
    rw [step, hlead]
    dsimp only
    rw [follow_of_missing hcompletes hmissing]
    rfl
  rw [decode_cons, hstep, decode]

/-- The first bytes of a text are those of its first characters, and maybe some of one more. -/
lemma exists_whole_of_isPrefix {cs : List Char} {bytes : List UInt8}
    (h : bytes <+: cs.flatMap String.utf8EncodeChar) :
    ∃ (whole : List Char) (broken : List UInt8),
      bytes = whole.flatMap String.utf8EncodeChar ++ broken ∧ (broken = [] ∨ IsCut broken) := by
  induction cs generalizing bytes with
  | nil => exact ⟨[], [], List.prefix_nil.mp h, .inl rfl⟩
  | cons c cs ih =>
    obtain ⟨behind, hbehind⟩ := h
    rw [List.flatMap_cons] at hbehind
    -- the end of the bytes lies in the first character or behind it
    rcases List.append_eq_append_iff.mp hbehind with ⟨missing, hc, -⟩ | ⟨later, rfl, hlater⟩
    · by_cases hbytes : bytes = []
      · exact ⟨[], [], hbytes, .inl rfl⟩
      by_cases hmissing : missing = []
      · refine ⟨[c], [], ?_, .inl rfl⟩
        rw [hmissing, List.append_nil] at hc
        rw [List.flatMap_singleton, List.append_nil, hc]
      · exact ⟨[], bytes, rfl, .inr ⟨c, missing, hc, hbytes, hmissing⟩⟩
    · obtain ⟨whole, broken, rfl, hbroken⟩ := ih ⟨behind, hlater.symm⟩
      refine ⟨c :: whole, broken, ?_, hbroken⟩
      rw [List.flatMap_cons, List.append_assoc]

/-! ### Bytes of ASCII characters -/

lemma low_of_lead? {n : Nat} {lead : Lead} (h : lead? n = some lead) : 0x80 ≤ lead.low := by
  unfold lead? at h
  split_ifs at h <;> cases h <;> simp

/-- An ASCII byte never goes on with a character. -/
lemma follow_concat {byte : UInt8} (hbyte : byte.toNat < 0x80) {low : Nat} (hlow : 0x80 ≤ low)
    (more high bits : Nat) (rest : List UInt8) :
    follow more low high bits (rest ++ [byte]) =
      ((follow more low high bits rest).1, (follow more low high bits rest).2 ++ [byte]) := by
  fun_induction follow more low high bits rest with
  | case1 => rw [follow]
  | case2 =>
    rw [List.nil_append, follow, if_neg (by omega)]
  | case3 _ _ _ _ _ _ hbounds ih =>
    rw [List.cons_append, follow, if_pos hbounds]
    exact ih (Nat.le_refl _)
  | case4 _ _ _ _ _ _ hbounds => rw [List.cons_append, follow, if_neg hbounds]

lemma step_concat {byte : UInt8} (hbyte : byte.toNat < 0x80) (first : UInt8) (rest : List UInt8) :
    step first (rest ++ [byte]) = ((step first rest).1, (step first rest).2 ++ [byte]) := by
  unfold step
  cases hlead : lead? first.toNat with
  | none => rfl
  | some lead =>
    dsimp only
    rw [follow_concat hbyte (low_of_lead? hlead)]

/-- A byte of an ASCII character is read as this character, whatever stands before it. -/
lemma decode_concat {byte : UInt8} (hbyte : byte.toNat < 0x80) (bytes : List UInt8) :
    decode (bytes ++ [byte]) = decode bytes ++ [some (Char.ofNat byte.toNat)] := by
  fun_induction decode bytes with
  | case1 =>
    have hstep : step byte [] = (some (Char.ofNat byte.toNat), []) := by
      rw [step, lead?, if_pos (by omega)]
      rfl
    rw [List.nil_append, decode_cons, hstep, decode]
    rfl
  | case2 first rest hless ih =>
    rw [List.cons_append, decode_cons, step_concat hbyte, ih]
    rfl

lemma lossy_concat {byte : UInt8} (hbyte : byte.toNat < 0x80) (bytes : List UInt8) :
    lossy (bytes ++ [byte]) = lossy bytes ++ String.singleton (Char.ofNat byte.toNat) := by
  rw [lossy, decode_concat hbyte, List.map_append, String.ofList_append]
  rfl

lemma encodeChar_of_lt {c : Char} (h : c.toNat < 0x80) :
    String.utf8EncodeChar c = [UInt8.ofNat c.toNat] := by
  have hle : c.val.toNat ≤ 127 := Nat.le_of_lt_succ h
  rw [String.utf8EncodeChar]
  exact if_pos hle

/-- A byte of an ASCII character is the only byte of its character. -/
lemma eq_nil_of_ascii {c : Char} {before behind : List UInt8} {byte : UInt8}
    (hbyte : byte.toNat < 0x80) (h : String.utf8EncodeChar c = before ++ byte :: behind) :
    before = [] := by
  by_cases hc : c.toNat < 0x80
  · have hlength := congrArg List.length h
    rw [encodeChar_of_lt hc, List.length_append, List.length_singleton, List.length_cons] at hlength
    exact List.eq_nil_of_length_eq_zero (by omega)
  · have hmem : Char.ofUInt8 byte ∈ spellChar c := by
      rw [spellChar, h]
      exact List.mem_map_of_mem (by simp)
    have hlt : 127 < byte.toNat := lt_of_mem_spellChar (by omega) hmem
    omega

/-- What stands before the byte of an ASCII character in a text is a text. -/
lemma exists_chars_of_ascii {cs : List Char} {before behind : List UInt8} {byte : UInt8}
    (hbyte : byte.toNat < 0x80)
    (h : cs.flatMap String.utf8EncodeChar = before ++ byte :: behind) :
    ∃ earlier : List Char, before = earlier.flatMap String.utf8EncodeChar := by
  induction cs generalizing before with
  | nil => exact absurd h.symm (by simp)
  | cons c cs ih =>
    rw [List.flatMap_cons] at h
    rcases List.append_eq_append_iff.mp h with ⟨later, rfl, hlater⟩ | ⟨part, hc, hpart⟩
    · obtain ⟨earlier, rfl⟩ := ih hlater
      exact ⟨c :: earlier, List.flatMap_cons.symm⟩
    · cases part with
      | nil =>
        rw [List.append_nil] at hc
        exact ⟨[c], by rw [List.flatMap_singleton, hc]⟩
      | cons first part =>
        obtain rfl : byte = first := (List.cons.inj hpart).1
        exact ⟨[], eq_nil_of_ascii hbyte hc⟩

end ScriptConsole.Text.Utf8
