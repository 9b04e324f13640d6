import StDevice.Easysetup.Http.Parser

/-!
# The text of a POST request

A request is a request line, header lines, a blank line and a body. `es_msg_parser` reads the
header lines by pairs of `strtok`, of which the second one passes over CR and LF: a line with
an empty value takes the next line for its value (`joined`). What the parser makes of the
text follows from the lines it comes to, of which there are sixteen at most.

The value of Content-Length is read up to the first character that is no digit, and put into
an `int`.
-/

namespace StDevice.Easysetup.Http

open CString

/-- A header line. -/
structure HeaderLine where
  name : List UInt8
  value : List UInt8
  nonempty : name ≠ []
  plain : ∀ c ∈ name, c ≠ 0 ∧ c ∉ ascii "\r\n: \t"
  text : ∀ c ∈ value, c ≠ 0 ∧ c ∉ ascii "\r\n"

def HeaderLine.bytes (line : HeaderLine) : List UInt8 :=
  line.name ++ 58 :: (line.value ++ [13, 10])

/-- The value of Content-Length, of a line for it. -/
def HeaderLine.contentLength? (line : HeaderLine) : Option (List UInt8) :=
  if isHeaderContentLength line.name then some line.value else none

/-- A POST request with at most one line for Content-Length. -/
structure PostText where
  uri : List UInt8
  uriGiven : uri ≠ []
  uriPlain : ∀ c ∈ uri, c ≠ 0 ∧ c ∉ ascii " \t\r\n"
  prot : List UInt8
  protGiven : prot ≠ []
  protPlain : ∀ c ∈ prot, c ≠ 0 ∧ c ∉ ascii " \t\r\n"
  lines : List HeaderLine
  single : (lines.filterMap HeaderLine.contentLength?).length ≤ 1
  body : List UInt8

namespace PostText

variable (r : PostText)

def requestLine : List UInt8 := ascii "POST" ++ 32 :: (r.uri ++ 32 :: r.prot)

/-- The text up to the body. -/
def header : List UInt8 :=
  r.requestLine ++ 13 :: 10 :: (r.lines.flatMap HeaderLine.bytes ++ [13, 10])

def bytes : List UInt8 := r.header ++ r.body

def contentLength? : Option (List UInt8) := (r.lines.filterMap HeaderLine.contentLength?).head?

end PostText

/-! ## What a value says -/

def isBlank (c : UInt8) : Bool := c == 32 || c == 9

/-- The number of some digits. -/
def decimalValue (digits : List UInt8) : Nat := digits.foldl (fun n d => n * 10 + (d.toNat - 48)) 0

/-- The number a value is, which may have a sign, and blanks around it. -/
def numberOf (value : List UInt8) : Option Int :=
  let text := value.dropWhile isBlank
  let negative := text.head? == some 45
  let unsigned := if negative || text.head? == some 43 then text.drop 1 else text
  let digits := unsigned.takeWhile isDigit
  if digits = [] ∨ (unsigned.dropWhile isDigit).all isBlank = false then none
  else some (if negative then -(decimalValue digits : Int) else decimalValue digits)

/-- The length a value is, up to 2^31 - 1. -/
def lengthOf (value : List UInt8) : Option Nat :=
  match numberOf value with
  | none => none
  | some n => if 0 ≤ n ∧ n < 2 ^ 31 then some n.toNat else none

/-- The length a request gives. There is none where Content-Length is missing or no length. -/
def PostText.length? (r : PostText) : Option Nat := r.contentLength?.bind lengthOf

/-- The answer to a request: one that gives a length is accepted with its body, or without
payload where the length is 0, and any other is rejected. -/
def PostText.Answered (r : PostText) (buf : List UInt8) : Prop :=
  match r.length? with
  | none => esMsgParser buf = none
  | some n => ∃ p, esMsgParser buf = some p ∧
      if n = 0 then p.payload = none
      else p.contentLen = n ∧ ∃ e, strstr buf (ascii "\r\n\r\n") = some e ∧
        p.payload = some (e + 4)

/-- What the parser takes a value for. -/
def readLength (value : List UInt8) : Option Int := (strtol (value.dropWhile (· = 32))).map toInt

/-! ## Lines as the parser reads them -/

/-- A name and a value, with what stands between the colon and the value. -/
structure HeaderEntry where
  name : List UInt8
  gap : List UInt8
  value : List UInt8
  nonempty : name ≠ []
  plain : ∀ c ∈ name, c ≠ 0 ∧ c ∉ ascii "\r\n: \t"
  breaks : ∀ c ∈ gap, c ∈ ascii "\r\n"
  given : value ≠ []
  text : ∀ c ∈ value, c ≠ 0 ∧ c ∉ ascii "\r\n"

namespace HeaderEntry

def bytes (e : HeaderEntry) : List UInt8 := e.name ++ 58 :: (e.gap ++ (e.value ++ [13, 10]))

def givesLength (e : HeaderEntry) : Bool := isHeaderContentLength e.name

/-- A line with a value. -/
def ofLine (line : HeaderLine) (given : line.value ≠ []) : HeaderEntry :=
  ⟨line.name, [], line.value, line.nonempty, line.plain, nofun, given, line.text⟩

/-- The whole of a line is text. -/
theorem text_line (line : HeaderLine) :
    ∀ c ∈ line.name ++ 58 :: line.value, c ≠ 0 ∧ c ∉ ascii "\r\n" := by
  intro c inside
  obtain name | value := List.mem_append.mp inside
  · obtain ⟨nonzero, plain⟩ := line.plain c name
    refine ⟨nonzero, fun among => plain ?_⟩
    have all : ∀ c ∈ ascii "\r\n", c ∈ ascii "\r\n: \t" := by decide +kernel
    exact all c among
  · obtain rfl | value := List.mem_cons.mp value
    · decide
    · exact line.text c value

/-- A line without a value, and the next one. -/
def ofLines (line next : HeaderLine) : HeaderEntry :=
  ⟨line.name, [13, 10], next.name ++ 58 :: next.value, line.nonempty, line.plain, by decide +kernel,
    by simp, text_line next⟩

end HeaderEntry

/-- The entries the parser finds in the lines; there are none when the last value is empty. -/
def joined : List HeaderLine → Option (List HeaderEntry)
  | [] => some []
  | line :: lines =>
      if given : line.value ≠ [] then (joined lines).map (HeaderEntry.ofLine line given :: ·)
      else
        match lines with
        | [] => none
        | next :: lines => (joined lines).map (HeaderEntry.ofLines line next :: ·)

/-- The first line for Content-Length among those the parser comes to. -/
def seen (entries : List HeaderEntry) : Option HeaderEntry :=
  (entries.take maxHeaderSupport).find? HeaderEntry.givesLength

/-- The parser stays in the header lines. It goes on in the body where there are none, or where
the last value is empty. -/
def PostText.HeaderEnds (r : PostText) : Prop := r.lines ≠ [] ∧ (joined r.lines).isSome = true

/-- The parser comes to the line for Content-Length, and to the blank line where there is a
body; or what it takes for the length is negative where the request gives none. -/
def PostText.ReadRight (r : PostText) : Prop :=
  r.lines ≠ [] ∧ ∃ entries, joined r.lines = some entries ∧
    match r.length? with
    | none => ∀ e len, seen entries = some e → readLength e.value = some len → len < 0
    | some n => (seen entries).isSome = true ∧ (n = 0 ∨ entries.length ≤ maxHeaderSupport)

/-- The loop over entries: the length it leaves, and whether it comes to the blank line. -/
def scanned : Nat → List HeaderEntry → Int → Int × Bool
  | 0, _, len => (len, false)
  | _, [], len => (len, false)
  | n + 1, e :: entries, len =>
      match contentLength e.name e.value len with
      | none => (len, false)
      | some len' => if entries = [] then (len', true) else scanned n entries len'

theorem isSpace_of_isBlank {c : UInt8} (blank : isBlank c = true) : isSpace c = true := by
  have cases : c = 32 ∨ c = 9 := by simpa [isBlank] using blank
  obtain rfl | rfl := cases <;> rfl

theorem isSpace_eq_false {c : UInt8} (digit : isDigit c = true) : isSpace c = false := by
  obtain ⟨low, high⟩ : 48 ≤ c ∧ c ≤ 57 := by simpa [isDigit] using digit
  rw [UInt8.le_iff_toNat_le] at low high
  have above : ¬ c ≤ 13 := by
    intro small
    rw [UInt8.le_iff_toNat_le] at small
    exact absurd (Nat.le_trans low small) (by decide)
  have other : c ≠ 32 := by
    rintro rfl
    exact absurd low (by decide)
  simp [isSpace, above, other]

/-- Dropping fewer characters first changes nothing. -/
theorem dropWhile_dropWhile {p q : UInt8 → Bool} (implies : ∀ c, q c = true → p c = true)
    (text : List UInt8) : (text.dropWhile q).dropWhile p = text.dropWhile p := by
  induction text with
  | nil => rfl
  | cons c text ih =>
      by_cases holds : q c = true
      · rw [List.dropWhile_cons_of_pos holds, ih, List.dropWhile_cons_of_pos (implies c holds)]
      · rw [List.dropWhile_cons_of_neg holds]

/-- A number starts with a sign or a digit. -/
theorem dropWhile_of_numberOf {value : List UInt8} {val : Int}
    (number : numberOf value = some val) :
    (value.dropWhile isBlank).dropWhile isSpace = value.dropWhile isBlank := by
  unfold numberOf at number
  cases text : value.dropWhile isBlank with
  | nil =>
      rw [text] at number
      cases number
  | cons c more =>
      have stops : isSpace c = false := by
        by_cases minus : c = 45
        · subst minus
          rfl
        · by_cases plus : c = 43
          · subst plus
            rfl
          · by_cases digit : isDigit c = true
            · exact isSpace_eq_false digit
            · rw [text] at number
              simp [minus, plus, List.takeWhile_cons_of_neg digit] at number
      exact List.dropWhile_cons_of_neg (by rw [stops]; exact Bool.false_ne_true)

theorem strtol_of_numberOf {value : List UInt8} {val : Int} (number : numberOf value = some val)
    (low : longMin < val) (high : val < longMax) :
    strtol (value.dropWhile (· = 32)) = some val := by
  have text : (value.dropWhile (· = 32)).dropWhile isSpace = value.dropWhile isBlank := by
    have first : ∀ c : UInt8, decide (c = 32) = true → isSpace c = true := by
      intro c space
      obtain rfl : c = 32 := of_decide_eq_true space
      rfl
    rw [dropWhile_dropWhile first, ← dropWhile_dropWhile @isSpace_of_isBlank,
      dropWhile_of_numberOf number]
  unfold numberOf at number
  unfold strtol
  rw [text]
  simp only at number ⊢
  generalize (if ((value.dropWhile isBlank).head? == some 45 ||
    (value.dropWhile isBlank).head? == some 43) = true then (value.dropWhile isBlank).drop 1
    else value.dropWhile isBlank) = unsigned at number ⊢
  split at number
  case isTrue => cases number
  case isFalse found =>
    rw [if_neg fun empty => found (.inl empty)]
    have same := Option.some.inj number
    unfold decimalValue at same
    rw [same, if_neg (by omega)]

theorem toInt_eq {len : Int} (nonneg : 0 ≤ len) (small : len < 2 ^ 31) : toInt len = len := by
  rw [toInt, Int.bmod_def]
  omega

/-- A value that is a length is taken for this length. -/
theorem readLength_of_lengthOf {value : List UInt8} {n : Nat} (length : lengthOf value = some n) :
    readLength value = some (n : Int) := by
  unfold lengthOf at length
  cases number : numberOf value with
  | none =>
      rw [number] at length
      cases length
  | some val =>
      rw [number] at length
      simp only at length
      by_cases range : 0 ≤ val ∧ val < 2 ^ 31
      · rw [if_pos range] at length
        have back : val = (n : Int) := by
          have same := Option.some.inj length
          omega
        obtain ⟨nonneg, small⟩ := range
        have low : longMin < val := Int.lt_of_lt_of_le (by decide) nonneg
        have high : val < longMax := Int.lt_trans small (by decide)
        rw [readLength, strtol_of_numberOf number low high, Option.map_some,
          toInt_eq nonneg small, back]
      · rw [if_neg range] at length
        cases length

/-- A length has digits. -/
theorem ne_nil_of_lengthOf {value : List UInt8} {n : Nat} (length : lengthOf value = some n) :
    value ≠ [] := by
  rintro rfl
  cases length

/-! ## The lines and the entries -/

theorem flatMap_bytes_of_joined {lines : List HeaderLine} {entries : List HeaderEntry}
    (joins : joined lines = some entries) :
    entries.flatMap HeaderEntry.bytes = lines.flatMap HeaderLine.bytes := by
  fun_induction joined lines generalizing entries with
  | case1 =>
      obtain rfl := Option.some.inj joins
      rfl
  | case2 line lines given ih =>
      obtain ⟨rest, later, rfl⟩ := Option.map_eq_some_iff.mp joins
      rw [List.flatMap_cons, List.flatMap_cons, ih later]
      simp [HeaderEntry.ofLine, HeaderEntry.bytes, HeaderLine.bytes]
  | case3 => cases joins
  | case4 line given next lines ih =>
      obtain ⟨rest, later, rfl⟩ := Option.map_eq_some_iff.mp joins
      have empty : line.value = [] := by simpa using given
      rw [List.flatMap_cons, List.flatMap_cons, List.flatMap_cons, ih later]
      simp [HeaderEntry.ofLines, HeaderEntry.bytes, HeaderLine.bytes, empty]

theorem ne_nil_of_joined {lines : List HeaderLine} {entries : List HeaderEntry}
    (joins : joined lines = some entries) (given : lines ≠ []) : entries ≠ [] := by
  rintro rfl
  unfold joined at joins
  split at joins
  · exact given rfl
  · split at joins
    · exact absurd joins (by simp)
    · split at joins <;> exact absurd joins (by simp)

/-- The name of every entry is that of a line. -/
theorem names_of_joined {lines : List HeaderLine} {entries : List HeaderEntry}
    (joins : joined lines = some entries) :
    (entries.map HeaderEntry.name).Sublist (lines.map HeaderLine.name) := by
  fun_induction joined lines generalizing entries with
  | case1 =>
      obtain rfl := Option.some.inj joins
      exact List.Sublist.refl _
  | case2 line lines given ih =>
      obtain ⟨rest, later, rfl⟩ := Option.map_eq_some_iff.mp joins
      exact (ih later).cons_cons line.name
  | case3 => cases joins
  | case4 line given next lines ih =>
      obtain ⟨rest, later, rfl⟩ := Option.map_eq_some_iff.mp joins
      exact ((ih later).cons next.name).cons_cons line.name

/-- Every entry comes from a line, and has its value where that is not empty. -/
theorem line_of_joined {lines : List HeaderLine} {entries : List HeaderEntry}
    (joins : joined lines = some entries) {e : HeaderEntry} (inside : e ∈ entries) :
    ∃ line ∈ lines, line.name = e.name ∧ (line.value ≠ [] → e.value = line.value) := by
  fun_induction joined lines generalizing entries with
  | case1 =>
      obtain rfl := Option.some.inj joins
      cases inside
  | case2 line lines given ih =>
      obtain ⟨rest, later, rfl⟩ := Option.map_eq_some_iff.mp joins
      obtain rfl | inside := List.mem_cons.mp inside
      · exact ⟨line, List.mem_cons_self, rfl, fun _ => rfl⟩
      · obtain ⟨found, among, same⟩ := ih later inside
        exact ⟨found, List.mem_cons_of_mem _ among, same⟩
  | case3 => cases joins
  | case4 line given next lines ih =>
      obtain ⟨rest, later, rfl⟩ := Option.map_eq_some_iff.mp joins
      obtain rfl | inside := List.mem_cons.mp inside
      · exact ⟨line, List.mem_cons_self, rfl, fun other => absurd other given⟩
      · obtain ⟨found, among, same⟩ := ih later inside
        exact ⟨found, List.mem_cons_of_mem _ (List.mem_cons_of_mem _ among), same⟩

/-- The entries for Content-Length are as few as the lines for it. -/
theorem single_of_joined {lines : List HeaderLine} {entries : List HeaderEntry}
    (joins : joined lines = some entries)
    (single : (lines.filterMap HeaderLine.contentLength?).length ≤ 1) :
    (entries.filter HeaderEntry.givesLength).length ≤ 1 := by
  have ofLines : (lines.filterMap HeaderLine.contentLength?).length =
      ((lines.map HeaderLine.name).filter isHeaderContentLength).length := by
    rw [List.filter_map, List.length_map]
    clear joins single
    induction lines with
    | nil => rfl
    | cons line lines ih =>
        by_cases counts : isHeaderContentLength line.name = true
        · simp [HeaderLine.contentLength?, counts, ih]
        · simp [HeaderLine.contentLength?, counts, ih]
  have ofEntries : (entries.filter HeaderEntry.givesLength).length =
      ((entries.map HeaderEntry.name).filter isHeaderContentLength).length := by
    rw [List.filter_map, List.length_map]
    rfl
  rw [ofEntries]
  have fewer := ((names_of_joined joins).filter isHeaderContentLength).length_le
  omega

/-! ## The loop over the entries -/

theorem HeaderEntry.length_bytes (e : HeaderEntry) :
    e.bytes.length = e.name.length + 1 + e.gap.length + e.value.length + 2 := by
  simp only [bytes, List.length_append, List.length_cons, List.length_nil]
  omega

/-- What follows an entry starts with CR exactly behind the last one. -/
theorem headerEnds_iff {buf tail : List UInt8} {entries : List HeaderEntry} {stop : Nat}
    (behind : buf.drop (stop + 1) =
      10 :: (entries.flatMap HeaderEntry.bytes ++ 13 :: 10 :: tail)) :
    headerEnds buf stop = true ↔ entries = [] := by
  have cell : ∀ i, buf.getD (stop + 1 + i) 0 =
      (10 :: (entries.flatMap HeaderEntry.bytes ++ 13 :: 10 :: tail)).getD i 0 := by
    intro i
    rw [← behind, List.getD_eq_getElem?_getD, List.getD_eq_getElem?_getD, List.getElem?_drop]
  have first := cell 0
  have second := cell 1
  have third := cell 2
  rw [Nat.add_zero] at first
  unfold headerEnds
  rw [first, show stop + 2 = stop + 1 + 1 from rfl, second, show stop + 3 = stop + 1 + 2 from rfl,
    third]
  cases entries with
  | nil => simp
  | cons e entries =>
      obtain ⟨c, more, name⟩ := List.exists_cons_of_ne_nil e.nonempty
      have plain := (e.plain c (by rw [name]; exact List.mem_cons_self)).2
      have other : c ≠ 13 := by
        rintro rfl
        exact plain (by decide)
      simp [HeaderEntry.bytes, name, other]

/-- One entry of the loop. -/
theorem scanHeaders_entry {e : HeaderEntry} {entries : List HeaderEntry} {buf tail : List UInt8}
    {pos : Nat} (n : Nat) (len : Int) (body : Option Nat)
    (here : buf.drop pos =
      10 :: ((e :: entries).flatMap HeaderEntry.bytes ++ 13 :: 10 :: tail)) :
    ∃ buf', buf'.drop (pos + e.bytes.length) =
        10 :: (entries.flatMap HeaderEntry.bytes ++ 13 :: 10 :: tail) ∧
      (contentLength e.name e.value len = none →
        (scanHeaders (n + 1) buf pos len body).postContentLen = len ∧
          (scanHeaders (n + 1) buf pos len body).body = body) ∧
      ∀ len', contentLength e.name e.value len = some len' →
        scanHeaders (n + 1) buf pos len body =
          if entries = [] then ⟨buf', len', some (pos + e.bytes.length + 2), true⟩
          else scanHeaders n buf' (pos + e.bytes.length) len'
            (some (pos + e.bytes.length - 1)) := by
  have size := e.length_bytes
  have text : buf.drop pos = [10] ++ (e.name ++ 58 :: (e.gap ++ (e.value ++ 13 :: 10 ::
      (entries.flatMap HeaderEntry.bytes ++ 13 :: 10 :: tail)))) := by
    rw [here, List.flatMap_cons]
    simp [HeaderEntry.bytes]
  obtain ⟨key, keyToken, keyText, keyStop, keyNext, afterKey⟩ :=
    strtok_of_split _ _ text (by decide +kernel) e.nonempty e.plain (by decide) (by decide)
  obtain ⟨value, valueToken, valueText, valueStop, valueNext, afterValue⟩ :=
    strtok_of_split _ _ afterKey e.breaks e.given e.text (by decide) (by decide)
  simp only [List.length_cons, List.length_nil] at keyStop
  have stop : value.stop = pos + e.bytes.length - 1 := by omega
  have next : value.next = pos + e.bytes.length := by omega
  have last : value.stop + 3 = pos + e.bytes.length + 2 := by omega
  have ends := headerEnds_iff (valueNext ▸ afterValue)
  rw [next] at afterValue
  refine ⟨value.cut (key.cut buf), afterValue, ?_, ?_⟩
  · intro broken
    rw [← keyText, ← valueText] at broken
    simp only [scanHeaders, keyToken, valueToken, broken, and_self]
  · intro len' counted
    rw [← keyText, ← valueText] at counted
    rw [scanHeaders_succ keyToken valueToken counted, last, next, stop, ← stop]
    by_cases whole : entries = []
    · rw [if_pos (ends.mpr whole), if_pos whole]
    · rw [if_neg fun found => whole (ends.mp found), if_neg whole]

/-- The loop over the header lines of a request. Its place is that of the blank line exactly
when it comes there. -/
theorem scanHeaders_entries {entries : List HeaderEntry} {buf tail : List UInt8} {pos : Nat}
    (n : Nat) (len : Int) (body : Option Nat) (given : entries ≠ [])
    (here : buf.drop pos = 10 :: (entries.flatMap HeaderEntry.bytes ++ 13 :: 10 :: tail)) :
    (scanHeaders n buf pos len body).postContentLen = (scanned n entries len).1 ∧
      ((scanned n entries len).2 = true → (scanHeaders n buf pos len body).body =
        some (pos + (entries.flatMap HeaderEntry.bytes).length + 2)) ∧
      ((scanned n entries len).2 = false → ∀ q, (scanHeaders n buf pos len body).body = some q →
        body = some q ∨ q < pos + (entries.flatMap HeaderEntry.bytes).length + 2) ∧
      (body.isSome = true ∨ (scanned n entries len).1 ≠ len →
        (scanHeaders n buf pos len body).body.isSome = true) := by
  induction entries generalizing n buf pos len body with
  | nil => exact absurd rfl given
  | cons e entries ih =>
      cases n with
      | zero =>
          refine ⟨rfl, fun whole => absurd whole (by simp [scanned]), ?_, ?_⟩
          · intro _ q place
            exact .inl place
          · rintro (before | changed)
            · exact before
            · exact absurd rfl changed
      | succ n =>
          have size := e.length_bytes
          obtain ⟨buf', later, breaks, goesOn⟩ := scanHeaders_entry n len body here
          cases counted : contentLength e.name e.value len with
          | none =>
              obtain ⟨kept, place⟩ := breaks counted
              have result : scanned (n + 1) (e :: entries) len = (len, false) := by
                simp only [scanned, counted]
              rw [kept, place, result]
              refine ⟨rfl, fun whole => absurd whole (by simp), fun _ q same => .inl same, ?_⟩
              rintro (before | changed)
              · exact before
              · exact absurd rfl changed
          | some len' =>
              rw [goesOn len' counted, List.flatMap_cons, List.length_append]
              by_cases last : entries = []
              · have result : scanned (n + 1) (e :: entries) len = (len', true) := by
                  simp only [scanned, counted, if_pos last]
                rw [if_pos last, result, last]
                exact ⟨rfl, fun _ => rfl, fun other => absurd other (by simp), fun _ => rfl⟩
              · have result : scanned (n + 1) (e :: entries) len = scanned n entries len' := by
                  simp only [scanned, counted, if_neg last]
                rw [if_neg last, result]
                obtain ⟨length, found, before, someBody⟩ :=
                  ih n len' (some (pos + e.bytes.length - 1)) last later
                refine ⟨length, ?_, ?_, fun _ => someBody (.inl rfl)⟩
                · intro whole
                  rw [found whole, Nat.add_assoc pos]
                · intro short q place
                  refine .inr ?_
                  obtain same | less := before short q place
                  · have equal := Option.some.inj same
                    omega
                  · omega

/-- The loop takes the first length it comes to. -/
theorem scanned_of_single {entries : List HeaderEntry} (n : Nat) (len : Int)
    (given : entries ≠ [])
    (single : (entries.filter HeaderEntry.givesLength).length ≤ 1) :
    scanned n entries len =
      match (entries.take n).find? HeaderEntry.givesLength with
      | none => (len, decide (entries.length ≤ n))
      | some e =>
          match readLength e.value with
          | none => (len, false)
          | some val => (val, decide (entries.length ≤ n)) := by
  induction entries generalizing n len with
  | nil => exact absurd rfl given
  | cons e entries ih =>
      cases n with
      | zero => rfl
      | succ n =>
          have bound : ((e :: entries).length ≤ n + 1) = (entries.length ≤ n) := by simp
          simp only [List.take_succ_cons, bound]
          by_cases counts : e.givesLength = true
          · rw [List.find?_cons_of_pos counts]
            rw [List.filter_cons_of_pos counts] at single
            have none_left : entries.filter HeaderEntry.givesLength = [] := by
              apply List.eq_nil_of_length_eq_zero
              rw [List.length_cons] at single
              omega
            have absent : (entries.take n).find? HeaderEntry.givesLength = none := by
              rw [List.find?_eq_none]
              intro other inside
              exact List.filter_eq_nil_iff.mp none_left other (List.mem_of_mem_take inside)
            have same : contentLength e.name e.value len = readLength e.value := by
              rw [contentLength, ← HeaderEntry.givesLength, if_pos counts]
              rfl
            simp only [scanned, same]
            cases value : readLength e.value with
            | none => rfl
            | some val =>
                by_cases last : entries = []
                · simp [last]
                · simp only [if_neg last, ih n val last (by simp [none_left]), absent]
          · rw [List.find?_cons_of_neg counts]
            rw [List.filter_cons_of_neg counts] at single
            have same : contentLength e.name e.value len = some len := by
              rw [contentLength, ← HeaderEntry.givesLength, if_neg counts]
            simp only [scanned, same]
            by_cases last : entries = []
            · simp [last]
            · simp only [if_neg last, ih n len last single]

/-! ## The request -/

/-- A line break with a text behind it is passed over in the search for a blank line. -/
theorem strstr_line {text after : List UInt8} (given : text ≠ []) (plain : 13 ∉ text) :
    strstr (13 :: 10 :: (text ++ after)) (ascii "\r\n\r\n") =
      (strstr after (ascii "\r\n\r\n")).map (· + (text.length + 2)) := by
  have blank : ascii "\r\n\r\n" = [13, 10, 13, 10] := by decide
  have first : ¬ [13, 10, 13, 10] <+: 13 :: ((10 :: text) ++ after) := by
    intro found
    obtain ⟨c, more, rfl⟩ := List.exists_cons_of_ne_nil given
    have third := (List.cons_prefix_cons.mp (List.cons_prefix_cons.mp found).2).2
    exact plain ((List.cons_prefix_cons.mp third).1 ▸ List.mem_cons_self)
  have rest : 13 ∉ 10 :: text := by simpa using plain
  rw [blank, ← List.cons_append, strstr, if_neg first, strstr_append_of_notMem rest,
    Option.map_map]
  rfl

/-- The first blank line behind the request line is that of the header. -/
theorem strstr_lines (lines : List HeaderLine) (after : List UInt8) :
    strstr (13 :: 10 :: (lines.flatMap HeaderLine.bytes ++ 13 :: 10 :: after))
      (ascii "\r\n\r\n") = some (lines.flatMap HeaderLine.bytes).length := by
  induction lines with
  | nil =>
      have here : ascii "\r\n\r\n" <+: 13 :: 10 :: 13 :: 10 :: after := ⟨after, rfl⟩
      rw [List.flatMap_nil, List.nil_append, strstr, if_pos here, List.length_nil]
  | cons line lines ih =>
      have split : (line :: lines).flatMap HeaderLine.bytes ++ 13 :: 10 :: after =
          (line.name ++ 58 :: line.value) ++
            (13 :: 10 :: (lines.flatMap HeaderLine.bytes ++ 13 :: 10 :: after)) := by
        simp [HeaderLine.bytes]
      have plain : 13 ∉ line.name ++ 58 :: line.value :=
        fun inside => (HeaderEntry.text_line line 13 inside).2 (by decide)
      rw [split, strstr_line (by simp) plain, ih, Option.map_some, List.flatMap_cons,
        List.length_append]
      simp only [HeaderLine.bytes, List.length_append, List.length_cons, List.length_nil]
      congr 1
      omega

namespace PostText

variable (r : PostText)

/-- The text behind the request line, in a buffer with the request. -/
def behind (after : List UInt8) : List UInt8 :=
  r.lines.flatMap HeaderLine.bytes ++ 13 :: 10 :: (r.body ++ after)

theorem bytes_append (after : List UInt8) :
    r.bytes ++ after = r.requestLine ++ 13 :: 10 :: r.behind after := by
  simp [bytes, header, behind]

theorem length_header :
    r.header.length = r.requestLine.length + (r.lines.flatMap HeaderLine.bytes).length + 4 := by
  simp only [header, List.length_append, List.length_cons, List.length_nil]
  omega

/-- The tokens of the request line. -/
theorem read_bytes (after : List UInt8) :
    ∃ line, RequestLine.read (r.bytes ++ after) = some line ∧ line.method.text = ascii "POST" ∧
      line.prot.next = r.requestLine.length + 1 ∧
      (line.cut (r.bytes ++ after)).drop line.prot.next = 10 :: r.behind after := by
  have start : (r.bytes ++ after).drop 0 =
      [] ++ (ascii "POST" ++ 32 :: (r.uri ++ 32 :: (r.prot ++ 13 :: 10 :: r.behind after))) := by
    rw [bytes_append]
    simp [requestLine]
  have uriText : ∀ c ∈ r.uri, c ≠ 0 ∧ c ∉ ascii " \t" := by
    intro c inside
    obtain ⟨nonzero, plain⟩ := r.uriPlain c inside
    have all : ∀ c ∈ ascii " \t", c ∈ ascii " \t\r\n" := by decide +kernel
    exact ⟨nonzero, fun among => plain (all c among)⟩
  obtain ⟨method, first, methodText, methodStop, methodNext, afterMethod⟩ :=
    strtok_of_split (ascii " \t\r\n") [] start (by simp) (by decide) (by decide +kernel)
      (by decide) (by decide)
  obtain ⟨uri, second, uriText, uriStop, uriNext, afterUri⟩ :=
    strtok_of_split _ [] afterMethod (by simp) r.uriGiven uriText (by decide) (by decide)
  obtain ⟨prot, third, protText, protStop, protNext, afterProt⟩ :=
    strtok_of_split _ [] afterUri (by simp) r.protGiven r.protPlain (by decide)
      (by decide)
  refine ⟨⟨method, uri, prot⟩, ?_, methodText, ?_, afterProt⟩
  · simp only [RequestLine.read, first, second, third, Option.bind_eq_bind, Option.bind_some,
      Option.pure_def]
  · change prot.next = _
    simp only [requestLine, List.length_append, List.length_cons, List.length_nil] at *
    omega

/-- What the parser gives for a request whose header lines it does not leave. -/
theorem esMsgParser_bytes {entries : List HeaderEntry} (rest : List UInt8)
    (given : r.lines ≠ []) (joins : joined r.lines = some entries) :
    ((scanned maxHeaderSupport entries (-1)).1 < 0 → esMsgParser (r.bytes ++ 0 :: rest) = none) ∧
    (0 ≤ (scanned maxHeaderSupport entries (-1)).1 → ∃ p,
      esMsgParser (r.bytes ++ 0 :: rest) = some p ∧
      ((scanned maxHeaderSupport entries (-1)).1 = 0 → p.payload = none) ∧
      (0 < (scanned maxHeaderSupport entries (-1)).1 →
        p.contentLen = (scanned maxHeaderSupport entries (-1)).1.toNat ∧
        ∃ q, p.payload = some q ∧
          (q = r.header.length ↔ (scanned maxHeaderSupport entries (-1)).2 = true))) := by
  obtain ⟨line, reads, post, next, here⟩ := r.read_bytes (0 :: rest)
  rw [behind, ← flatMap_bytes_of_joined joins] at here
  obtain ⟨length, found, before, someBody⟩ :=
    scanHeaders_entries maxHeaderSupport (-1) none (ne_nil_of_joined joins given) here
  have size := r.length_header
  rw [← flatMap_bytes_of_joined joins] at size
  have whole : (r.bytes ++ 0 :: rest).length =
      r.header.length + (r.body.length + 1 + rest.length) := by
    simp only [bytes, List.length_append, List.length_cons]
    omega
  have notGet : ¬ ascii "POST" = ascii "GET" := by decide
  unfold esMsgParser
  simp only [reads, post, notGet, if_true, if_false, length]
  refine ⟨?_, ?_⟩
  · intro negative
    split
    · rfl
    · rw [if_pos negative]
  · intro nonneg
    obtain ⟨q, place⟩ := Option.isSome_iff_exists.mp (someBody (.inr (by omega)))
    have position : q + 1 ≤ r.header.length ∧
        (q + 1 = r.header.length ↔ (scanned maxHeaderSupport entries (-1)).2 = true) := by
      cases blank : (scanned maxHeaderSupport entries (-1)).2 with
      | true =>
          have same := Option.some.inj (place.symm.trans (found blank))
          refine ⟨by omega, fun _ => rfl, fun _ => by omega⟩
      | false =>
          have less := (before blank q place).resolve_left (by simp)
          refine ⟨by omega, fun same => by omega, fun absurdity => by cases absurdity⟩
    simp only [place, if_neg (by omega : ¬ (scanned maxHeaderSupport entries (-1)).1 < 0)]
    by_cases zero : (scanned maxHeaderSupport entries (-1)).1 = 0
    · rw [if_pos zero]
      exact ⟨_, rfl, fun _ => rfl, fun positive => by omega⟩
    · rw [if_neg zero, if_pos (by omega)]
      exact ⟨_, rfl, fun other => absurd other zero, fun _ => ⟨rfl, _, rfl, position.2⟩⟩

/-- The entry that is seen is the line for Content-Length. -/
theorem contentLength?_of_seen {entries : List HeaderEntry} {e : HeaderEntry}
    (joins : joined r.lines = some entries) (found : seen entries = some e) :
    ∃ value, r.contentLength? = some value ∧ (value ≠ [] → e.value = value) := by
  obtain ⟨line, among, name, same⟩ :=
    line_of_joined joins (List.mem_of_mem_take (List.mem_of_find?_eq_some found))
  have gives : e.givesLength = true := List.find?_some found
  have counts : isHeaderContentLength line.name = true := by
    rw [name]
    exact gives
  have inside : line.value ∈ r.lines.filterMap HeaderLine.contentLength? :=
    List.mem_filterMap.mpr ⟨line, among, if_pos counts⟩
  refine ⟨line.value, ?_, same⟩
  have single := r.single
  unfold contentLength?
  match values : r.lines.filterMap HeaderLine.contentLength? with
  | [] =>
      rw [values] at inside
      cases inside
  | [value] =>
      rw [values] at inside
      rw [List.mem_singleton.mp inside]
      rfl
  | _ :: _ :: _ =>
      rw [values] at single
      simp at single

theorem strstr_bytes (after : List UInt8) :
    ∃ e, strstr (r.bytes ++ after) (ascii "\r\n\r\n") = some e ∧ e + 4 = r.header.length := by
  have plain : 13 ∉ r.requestLine := by
    have uri : 13 ∉ r.uri := fun inside => (r.uriPlain 13 inside).2 (by decide)
    have prot : 13 ∉ r.prot := fun inside => (r.protPlain 13 inside).2 (by decide)
    have method : 13 ∉ ascii "POST" := by decide
    simp [requestLine, uri, prot, method]
  have blank : ascii "\r\n\r\n" = [13, 10, 13, 10] := by decide
  have lines := strstr_lines r.lines (r.body ++ after)
  rw [blank] at lines ⊢
  refine ⟨(r.lines.flatMap HeaderLine.bytes).length + r.requestLine.length, ?_, ?_⟩
  · rw [bytes_append, behind, strstr_append_of_notMem plain, lines, Option.map_some]
  · rw [length_header]
    omega

/-- Where the parser stays in the header lines, what it comes to decides the answer. -/
theorem answered_iff {entries : List HeaderEntry} (rest : List UInt8) (given : r.lines ≠ [])
    (joins : joined r.lines = some entries) :
    r.Answered (r.bytes ++ 0 :: rest) ↔
      match r.length? with
      | none => ∀ e len, seen entries = some e → readLength e.value = some len → len < 0
      | some n => (seen entries).isSome = true ∧ (n = 0 ∨ entries.length ≤ maxHeaderSupport) := by
  have scan := scanned_of_single maxHeaderSupport (-1) (ne_nil_of_joined joins given)
    (single_of_joined joins r.single)
  obtain ⟨rejects, accepts⟩ := r.esMsgParser_bytes rest given joins
  rw [← seen] at scan
  unfold Answered
  cases found : seen entries with
  | none =>
      simp only [found] at scan
      rw [scan] at rejects
      rw [rejects (by simp)]
      cases r.length? with
      | none => simp
      | some n => simp
  | some e =>
      simp only [found] at scan
      obtain ⟨value, values, kept⟩ := r.contentLength?_of_seen joins found
      cases reads : readLength e.value with
      | none =>
          simp only [reads] at scan
          rw [scan] at rejects
          rw [rejects (by simp)]
          cases length : r.length? with
          | none =>
              refine ⟨?_, fun _ => rfl⟩
              rintro - other len same length
              obtain rfl := Option.some.inj same
              exact absurd (reads.symm.trans length) (by simp)
          | some n =>
              -- a length would have been read
              rw [length?, values, Option.bind_some] at length
              rw [kept (ne_nil_of_lengthOf length), readLength_of_lengthOf length] at reads
              cases reads
      | some val =>
          simp only [reads] at scan
          rw [scan] at rejects accepts
          cases length : r.length? with
          | none =>
              simp only [Option.some.injEq]
              constructor
              · rintro rejected e len rfl same
                obtain rfl := Option.some.inj (reads.symm.trans same)
                by_contra nonneg
                obtain ⟨p, parses, -⟩ := accepts (by simpa using nonneg)
                rw [rejected] at parses
                cases parses
              · intro negative
                exact rejects (negative e val rfl reads)
          | some n =>
              rw [length?, values, Option.bind_some] at length
              rw [kept (ne_nil_of_lengthOf length), readLength_of_lengthOf length] at reads
              obtain rfl := Option.some.inj reads
              obtain ⟨p, parses, empty, body⟩ := accepts (Int.natCast_nonneg n)
              obtain ⟨e, first, position⟩ := r.strstr_bytes (0 :: rest)
              simp only [parses, first, Option.isSome_some, true_and, Option.some.injEq,
                exists_eq_left']
              by_cases zero : n = 0
              · simp only [zero, true_or, iff_true]
                exact empty (by simp [zero])
              · obtain ⟨counted, q, payload, whole⟩ := body (by simp; omega)
                simp only [zero, false_or, counted, payload, Int.toNat_natCast, true_and,
                  Option.some.injEq, position]
                exact whole.trans (by simp)

end PostText

/-- A length of 2^32 + 5. -/
def hugeLength : PostText where
  uri := ascii "/keyinfo"
  uriGiven := by decide
  uriPlain := by decide +kernel
  prot := ascii "HTTP/1.1"
  protGiven := by decide
  protPlain := by decide +kernel
  lines := [⟨ascii "Content-Length", ascii "4294967301", by decide, by decide +kernel,
    by decide +kernel⟩]
  single := by decide
  body := ascii "hello"

end StDevice.Easysetup.Http
