import StagePlan.Json.Token

/-!
# Strings in JSON

What is written between the quotes of a string is read back as the string. Bytes inside the quotes
`StandFor` others if they are scanned as pieces that decode to these, whatever follows. A byte that
needs no escape stands for itself, a short escape for its byte and a unit below the surrogates for
its character, so that an escaped character always stands for its own bytes (`standFor_escape`) and
a string in quotes for its own (`scanString_quoted`).
-/

namespace StagePlan.Json

/-! ## Bytes -/

/-- The bytes of a text. -/
def bytes (s : String) : List UInt8 := s.toList.flatMap String.utf8EncodeChar

/-- The bytes of two texts in a row are those of the one and of the other. -/
theorem bytes_append (s t : String) : bytes (s ++ t) = bytes s ++ bytes t := by
  simp [bytes]

/-- The bytes of a text are those of its characters. -/
theorem bytes_ofList (cs : List Char) :
    bytes (String.ofList cs) = cs.flatMap String.utf8EncodeChar := by
  simp [bytes]

/-- The loop takes the bytes from a position on, behind those it has taken. -/
theorem toList_loop (bs : ByteArray) (i : Nat) (taken : List UInt8) :
    ByteArray.toList.loop bs i taken = taken.reverse ++ bs.data.toList.drop i := by
  fun_induction ByteArray.toList.loop bs i taken with
  | case1 i taken lt ih =>
    have inside : i < bs.data.toList.length := lt
    have at_ : bs.get! i = bs.data.toList[i] := getElem!_pos bs.data i lt
    rw [ih, at_, List.reverse_cons, List.append_assoc, List.singleton_append,
      List.getElem_cons_drop]
  | case2 i taken ge =>
    rw [List.drop_of_length_le (Nat.not_lt.1 ge), List.append_nil]

/-- The encoding of a text has its bytes. -/
theorem toList_toUTF8 (s : String) : s.toUTF8.toList = bytes s := by
  rw [String.toUTF8_eq_toByteArray, ← String.utf8Encode_toList, ByteArray.toList, toList_loop]
  simp [bytes, List.utf8Encode]

/-- The bytes of a text decode to the text. -/
theorem fromUTF8?_bytes (s : String) : String.fromUTF8? ⟨(bytes s).toArray⟩ = some s := by
  have encoded : (⟨(bytes s).toArray⟩ : ByteArray) = s.toByteArray := by
    rw [← String.utf8Encode_toList]
    exact ByteArray.ext List.data_toByteArray.symm
  rw [encoded]
  exact dif_pos s.isValidUTF8

/-- An ASCII character is a single byte. -/
theorem utf8EncodeChar_ascii {c : Char} (ascii : c.toNat < 0x80) :
    String.utf8EncodeChar c = [UInt8.ofNat c.toNat] :=
  if_pos (Nat.le_of_lt_succ ascii)

/-- An ASCII text has a byte for every character. -/
theorem flatMap_utf8EncodeChar_ascii {cs : List Char} (ascii : ∀ c ∈ cs, c.toNat < 0x80) :
    cs.flatMap String.utf8EncodeChar = cs.map fun c => UInt8.ofNat c.toNat := by
  induction cs with
  | nil => rfl
  | cons c cs ih =>
    rw [List.flatMap_cons, utf8EncodeChar_ascii (ascii c List.mem_cons_self), List.map_cons,
      ih fun d member => ascii d (List.mem_cons_of_mem c member), List.singleton_append]

/-- The bytes of a character that is not ASCII are not either. -/
theorem le_of_mem_utf8EncodeChar {c : Char} {b : UInt8} (beyond : 0x80 ≤ c.toNat)
    (member : b ∈ String.utf8EncodeChar c) : 0x80 ≤ b := by
  have beyond' : ¬ c.val.toNat ≤ 127 := Nat.not_le.2 beyond
  have high (n : Nat) (le : 0x80 ≤ n) (lt : n < 0x100) : (0x80 : UInt8) ≤ UInt8.ofNat n := by
    rw [UInt8.le_iff_toNat_le, UInt8.toNat_ofNat']
    exact Nat.le_trans le (Nat.le_of_eq (Nat.mod_eq_of_lt lt).symm)
  unfold String.utf8EncodeChar at member
  simp only [beyond', if_false] at member
  split at member
  · simp only [List.mem_cons, List.not_mem_nil, or_false] at member
    rcases member with rfl | rfl <;> exact high _ (by omega) (by omega)
  · split at member
    · simp only [List.mem_cons, List.not_mem_nil, or_false] at member
      rcases member with rfl | rfl | rfl <;> exact high _ (by omega) (by omega)
    · simp only [List.mem_cons, List.not_mem_nil, or_false] at member
      rcases member with rfl | rfl | rfl | rfl <;> exact high _ (by omega) (by omega)

/-! ## Inside the quotes -/

/-- Bytes inside a string stand for others: they are scanned as pieces that decode to these. -/
def StandFor (written meant : List UInt8) : Prop :=
  ∃ pieces,
    (∀ rest, scanString (written ++ rest)
      = (pieces ++ (scanString rest).1, (scanString rest).2)) ∧
    ∀ broken more, decodePieces broken (pieces ++ more)
      = (decodePieces broken more).map (meant ++ ·)

namespace StandFor

variable {written written' meant meant' : List UInt8}

/-- No bytes stand for none. -/
theorem nil : StandFor [] [] := by
  refine ⟨[], fun rest => rfl, fun broken more => ?_⟩
  rw [List.nil_append]
  cases decodePieces broken more <;> rfl

/-- Bytes in a row stand for what they stand for in a row. -/
theorem append (first : StandFor written meant) (second : StandFor written' meant') :
    StandFor (written ++ written') (meant ++ meant') := by
  obtain ⟨pieces, scanned, decoded⟩ := first
  obtain ⟨pieces', scanned', decoded'⟩ := second
  refine ⟨pieces ++ pieces', fun rest => ?_, fun broken more => ?_⟩
  · rw [List.append_assoc, scanned, scanned', List.append_assoc]
  · rw [List.append_assoc, decoded, decoded']
    cases decodePieces broken more with
    | error fault => rfl
    | ok bs => exact congrArg Except.ok (List.append_assoc meant meant' bs).symm

/-- A byte that needs no escape stands for itself. -/
theorem byte {b : UInt8} (plain : 0x20 ≤ b) (noQuote : b ≠ 0x22) (noEscape : b ≠ 0x5c) :
    StandFor [b] [b] := by
  refine ⟨[.byte b], fun rest => ?_, fun broken more => rfl⟩
  show scanString (b :: rest) = _
  rw [scanString.eq_7 b rest noQuote (fun _ _ _ _ _ same _ => noEscape same)
    (fun _ same _ => noEscape same) (fun same _ => noEscape same) fun _ _ same _ => noEscape same,
    if_neg (UInt8.not_lt.2 plain)]
  rfl

/-- Bytes that are neither controls nor quotes nor backslashes stand for themselves. -/
theorem plain : ∀ {bs : List UInt8}, (∀ b ∈ bs, 0x20 ≤ b ∧ b ≠ 0x22 ∧ b ≠ 0x5c) → StandFor bs bs
  | [], _ => nil
  | b :: bs, all => by
    obtain ⟨plain_, noQuote, noEscape⟩ := all b List.mem_cons_self
    exact (byte plain_ noQuote noEscape).append
      (plain fun b' member => all b' (List.mem_cons_of_mem b member))

/-- A short escape stands for its byte. -/
theorem short {letter b : UInt8} (escapes : shortEscape? letter = some b) :
    StandFor [0x5c, letter] [b] := by
  have noUnit : letter ≠ 0x75 := by
    rintro rfl
    cases escapes
  refine ⟨[.byte b], fun rest => ?_, fun broken more => rfl⟩
  show scanString (0x5c :: letter :: rest) = _
  rw [scanString.eq_6 letter rest (fun _ _ _ _ _ same _ => noUnit same) noUnit, escapes]
  rfl

/-- A unit below the surrogates stands for its character. -/
theorem unit {a b c d : UInt8} {n : Nat} (value : hexUnit? a b c d = some n) (low : n < 0xd800) :
    StandFor [0x5c, 0x75, a, b, c, d] (encodePoint n) := by
  refine ⟨[.unit n], fun rest => ?_, fun broken more => ?_⟩
  · show scanString (0x5c :: 0x75 :: a :: b :: c :: d :: rest) = _
    rw [scanString, value]
    rfl
  · have noSecond : ¬ (0xdc00 ≤ n ∧ n ≤ 0xdfff) := by omega
    have noFirst : ¬ (0xd800 ≤ n ∧ n ≤ 0xdbff) := by omega
    show decodePieces broken (.unit n :: more) = _
    rw [decodePieces.eq_def]
    simp only [noSecond, noFirst, if_false]

end StandFor

/-! ## Escaped characters -/

/-- A control character stands for itself by its number. -/
theorem standFor_control {c : Char} (control : c.toNat < 0x20) :
    StandFor (['\\', 'u', '0', '0', hexDigit (c.toNat / 16), hexDigit c.toNat].flatMap
      String.utf8EncodeChar) (String.utf8EncodeChar c) := by
  have digits : ∀ n < 0x20, (hexDigit (n / 16)).toNat < 0x80 ∧ (hexDigit n).toNat < 0x80 ∧
      hexUnit? 0x30 0x30 (.ofNat (hexDigit (n / 16)).toNat) (.ofNat (hexDigit n).toNat)
        = some n := by decide
  obtain ⟨high, low, value⟩ := digits c.toNat control
  have stands := StandFor.unit value (Nat.lt_of_lt_of_le control (by decide))
  rw [encodePoint, Char.ofNat_toNat] at stands
  have written : ['\\', 'u', '0', '0', hexDigit (c.toNat / 16), hexDigit c.toNat].flatMap
      String.utf8EncodeChar = [0x5c, 0x75, 0x30, 0x30, .ofNat (hexDigit (c.toNat / 16)).toNat,
        .ofNat (hexDigit c.toNat).toNat] := by
    simp only [List.flatMap_cons, utf8EncodeChar_ascii high, utf8EncodeChar_ascii low]
    rfl
  rwa [written]

/-- A character that is not escaped stands for itself. -/
theorem standFor_plain {c : Char} (plain : 0x20 ≤ c.toNat) (noQuote : c ≠ '"')
    (noEscape : c ≠ '\\') : StandFor (String.utf8EncodeChar c) (String.utf8EncodeChar c) := by
  rcases Nat.lt_or_ge c.toNat 0x80 with ascii | beyond
  · rw [utf8EncodeChar_ascii ascii]
    have value : (UInt8.ofNat c.toNat).toNat = c.toNat := by
      rw [UInt8.toNat_ofNat', Nat.mod_eq_of_lt (by omega)]
    have other {d : Char} {b : UInt8} (different : c ≠ d) (code : b.toNat = d.toNat) :
        UInt8.ofNat c.toNat ≠ b := by
      intro same
      rw [same, code] at value
      exact different (Char.toNat_inj.1 value.symm)
    refine .byte ?_ (other noQuote rfl) (other noEscape rfl)
    rw [UInt8.le_iff_toNat_le, value]
    exact plain
  · refine .plain fun b member => ?_
    have high : 0x80 ≤ b.toNat := UInt8.le_iff_toNat_le.1 (le_of_mem_utf8EncodeChar beyond member)
    refine ⟨UInt8.le_iff_toNat_le.2 (Nat.le_trans (by decide) high), ?_, ?_⟩ <;>
      · rintro rfl
        exact absurd high (by decide)

/-- An escaped character stands for its own bytes. -/
theorem standFor_escape (c : Char) :
    StandFor ((escape c).flatMap String.utf8EncodeChar) (String.utf8EncodeChar c) := by
  unfold escape
  iterate 7
    split
    next same =>
      subst same
      exact .short rfl
  split
  next control => exact standFor_control control
  next noQuote noEscape _ _ _ _ _ noControl =>
    rw [List.flatMap_singleton]
    exact standFor_plain (Nat.not_lt.1 noControl) noQuote noEscape

/-- The bytes of a string between its quotes. -/
def body (s : String) : List UInt8 := (s.toList.flatMap escape).flatMap String.utf8EncodeChar

/-- A quoted string has its body between two quotes. -/
theorem bytes_quoted (s : String) : bytes (quoted s) = 0x22 :: body s ++ [0x22] := by
  rw [quoted, bytes_ofList, List.flatMap_append, List.flatMap_cons]
  rfl

/-- The body of a quoted string stands for the bytes of the string. -/
theorem standFor_body (s : String) : StandFor (body s) (bytes s) := by
  unfold body bytes
  induction s.toList with
  | nil => exact .nil
  | cons c cs ih =>
    rw [List.flatMap_cons, List.flatMap_append, List.flatMap_cons]
    exact (standFor_escape c).append ih

/-- The pieces that a string in quotes is scanned as. -/
def piecesOf (s : String) : List Piece := (scanString (body s ++ [0x22])).1

/-- A string in quotes is scanned up to its closing quote, and decoded it is the string. -/
theorem scanString_quoted (s : String) :
    (∀ rest, scanString (body s ++ 0x22 :: rest) = (piecesOf s, none, rest)) ∧
      decodeString (piecesOf s) none = .ok s := by
  -- the pieces are those found before the closing quote, where scanning ends
  obtain ⟨pieces, scanned, decoded⟩ := standFor_body s
  have closed (rest : List UInt8) : scanString (body s ++ 0x22 :: rest) = (pieces, none, rest) := by
    rw [scanned, scanString, List.append_nil]
  have same : piecesOf s = pieces := congrArg (·.1) (closed [])
  have bytes := decoded none []
  rw [List.append_nil] at bytes
  refine ⟨by rwa [same], ?_⟩
  rw [same, decodeString, bytes]
  simp only [decodePieces, Except.map, bind, Except.bind, List.append_nil, fromUTF8?_bytes]
  rfl

end StagePlan.Json
