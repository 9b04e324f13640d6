import StDevice.Foundation.CString
import StDevice.Easysetup.Http.Onboarding

/-!
# The request parser

`es_msg_parser` cuts the receive buffer into tokens in place: the request line,
then at most sixteen header lines, up to the blank line. The buffer may hold a part
of the body as well. When the blank line is found there, what the parser returns
and what it changes depend on the header alone.
-/

namespace StDevice.Easysetup.Http

open CString

/-- `MAX_HEADER_SUPPORT`. -/
def maxHeaderSupport : Nat := 16

def toLower (c : UInt8) : UInt8 := if 65 ≤ c && c ≤ 90 then c + 32 else c

def isHeaderContentLength (headerKey : List UInt8) : Bool :=
  headerKey.map toLower == ascii "content-length"

def isSpace (c : UInt8) : Bool := c == 32 || (9 ≤ c && c ≤ 13)

/-- `LONG_MAX` where `long` has 64 bits. -/
def longMax : Int := 2 ^ 63 - 1

/-- `LONG_MIN` where `long` has 64 bits. -/
def longMin : Int := -2 ^ 63

/-- `strtol` in base 10, with its caller's check: `none` for a text without a
number and for the two values that also stand for an overflow. -/
def strtol (text : List UInt8) : Option Int :=
  let text := text.dropWhile isSpace
  let negative := text.head? == some 45
  let text := if negative || text.head? == some 43 then text.drop 1 else text
  let digits := text.takeWhile isDigit
  if digits = [] then none
  else
    let magnitude : Nat := digits.foldl (fun n d => n * 10 + (d.toNat - 48)) 0
    let val : Int := if negative then -magnitude else magnitude
    if longMax ≤ val ∨ val ≤ longMin then none else some val

/-- The conversion of a `long` to an `int` of 32 bits. -/
def toInt (val : Int) : Int := val.bmod (2 ^ 32)

/-- What the loop over the header lines leaves behind. `blank` says that it ended
at a blank line. -/
structure HeaderScan where
  buf : List UInt8
  postContentLen : Int
  body : Option Nat
  blank : Bool

/-- The content length after a header line; `none` leaves the loop. -/
def contentLength (key value : List UInt8) (postContentLen : Int) : Option Int :=
  if isHeaderContentLength key then (strtol (value.dropWhile (· = 32))).map toInt
  else some postContentLen

/-- The three bytes after the end of a value close the header. -/
def headerEnds (buf : List UInt8) (stop : Nat) : Bool :=
  buf.getD (stop + 1) 0 == 10 && buf.getD (stop + 2) 0 == 13 && buf.getD (stop + 3) 0 == 10

/-- The loop over the header lines, for at most `n` of them. -/
def scanHeaders : Nat → List UInt8 → Nat → Int → Option Nat → HeaderScan
  | 0, buf, _, postContentLen, body => ⟨buf, postContentLen, body, false⟩
  | n + 1, buf, pos, postContentLen, body =>
      match strtok buf pos (ascii "\r\n: \t") with
      | none => ⟨buf, postContentLen, body, false⟩
      | some key =>
          match strtok (key.cut buf) key.next (ascii "\r\n") with
          | none => ⟨key.cut buf, postContentLen, body, false⟩
          | some value =>
              let buf := value.cut (key.cut buf)
              match contentLength key.text value.text postContentLen with
              | none => ⟨buf, postContentLen, body, false⟩
              | some postContentLen =>
                  if headerEnds buf value.stop then
                    ⟨buf, postContentLen, some (value.stop + 3), true⟩
                  else scanHeaders n buf value.next postContentLen (some value.stop)

/-- The tokens of the request line. -/
structure RequestLine where
  method : Token
  uri : Token
  prot : Token

namespace RequestLine

/-- The buffer with the three tokens terminated. -/
def cut (line : RequestLine) (buf : List UInt8) : List UInt8 :=
  line.prot.cut (line.uri.cut (line.method.cut buf))

/-- The first three calls of `strtok`. -/
def read (buf : List UInt8) : Option RequestLine := do
  let method ← strtok buf 0 (ascii " \t\r\n")
  let uri ← strtok (method.cut buf) method.next (ascii " \t")
  let prot ← strtok (uri.cut (method.cut buf)) uri.next (ascii " \t\r\n")
  return ⟨method, uri, prot⟩

end RequestLine

/-- The URIs of GET requests. -/
def getStep (uri : List UInt8) : Step :=
  if uri = ascii "/deviceinfo" then .deviceinfo
  else if uri = ascii "/wifiscaninfo" then .wifiscaninfo
  else if uri = ascii "/logs/systeminfo" then .logSysteminfo
  else if uri = ascii "/logs/dump" then .logGetDump
  else .invalid

/-- The URIs of POST requests. -/
def postStep (uri : List UInt8) : Step :=
  if uri = ascii "/keyinfo" then .keyinfo
  else if uri = ascii "/confirminfo" then .confirminfo
  else if uri = ascii "/confirm" then .confirm
  else if uri = ascii "/wifiprovisioninginfo" then .wifiprovioninginfo
  else if uri = ascii "/setupcomplete" then .setupcomplete
  else if uri = ascii "/logs/dump" then .logCreateDump
  else .invalid

/-- What `es_msg_parser` stores for its caller. A `type` of `none` is `D2D_ERROR`,
for which no `cmd` is stored; `payload` is a position in the buffer. -/
structure Parsed where
  buf : List UInt8
  payload : Option Nat
  cmd : Option Step
  type : Option Method
  contentLen : Nat

/-- `es_msg_parser`; `none` is `IOT_ERROR_EASYSETUP_HTTP_PARSE_FAIL`. -/
def esMsgParser (buf : List UInt8) : Option Parsed :=
  match RequestLine.read buf with
  | none => none
  | some line =>
      if line.method.text = ascii "GET" then
        some ⟨line.cut buf, none, some (getStep line.uri.text), some .get, 0⟩
      else if line.method.text = ascii "POST" then
        let scan := scanHeaders maxHeaderSupport (line.cut buf) line.prot.next (-1) none
        match scan.body with
        | none => none
        | some body =>
            if scan.postContentLen < 0 then none
            else if scan.postContentLen = 0 then
              some ⟨scan.buf, none, some (postStep line.uri.text), some .post, 0⟩
            else if body + 1 < buf.length then
              some ⟨scan.buf, some (body + 1), some (postStep line.uri.text), some .post,
                scan.postContentLen.toNat⟩
            else none
      else some ⟨line.cut buf, none, none, none, 0⟩

/-- The header scan of a buffer that holds a POST request finds the blank line, and
the body starts at `position`. -/
def EndsHeaderAt (buf : List UInt8) (position : Nat) : Prop :=
  ∃ line, RequestLine.read buf = some line ∧ line.method.text = ascii "POST" ∧
    (scanHeaders maxHeaderSupport (line.cut buf) line.prot.next (-1) none).blank = true ∧
    (scanHeaders maxHeaderSupport (line.cut buf) line.prot.next (-1) none).body.map (· + 1) =
      some position

/-- One header line of the scan. -/
theorem scanHeaders_succ {n pos : Nat} {buf : List UInt8} {len len' : Int} {body : Option Nat}
    {key value : Token} (keyToken : strtok buf pos (ascii "\r\n: \t") = some key)
    (valueToken : strtok (key.cut buf) key.next (ascii "\r\n") = some value)
    (counted : contentLength key.text value.text len = some len') :
    scanHeaders (n + 1) buf pos len body =
      if headerEnds (value.cut (key.cut buf)) value.stop then
        ⟨value.cut (key.cut buf), len', some (value.stop + 3), true⟩
      else scanHeaders n (value.cut (key.cut buf)) value.next len' (some value.stop) := by
  simp only [scanHeaders, keyToken, valueToken, counted]

/-- A scan that finds the blank line has read a header line. -/
theorem exists_line_of_blank {n pos : Nat} {buf : List UInt8} {len : Int} {body : Option Nat}
    (blank : (scanHeaders (n + 1) buf pos len body).blank = true) :
    ∃ key value len', strtok buf pos (ascii "\r\n: \t") = some key ∧
      strtok (key.cut buf) key.next (ascii "\r\n") = some value ∧
      contentLength key.text value.text len = some len' := by
  unfold scanHeaders at blank
  split at blank
  case h_1 => exact absurd blank (by simp)
  case h_2 key keyToken =>
    split at blank
    case h_1 => exact absurd blank (by simp)
    case h_2 value valueToken =>
      simp only at blank
      split at blank
      case h_1 => exact absurd blank (by simp)
      case h_2 len' counted => exact ⟨key, value, len', keyToken, valueToken, counted⟩

/-- The blank line lies behind the start of the scan. -/
theorem scanHeaders_bound {n pos q : Nat} {buf : List UInt8} {len : Int} {body : Option Nat}
    (blank : (scanHeaders n buf pos len body).blank = true)
    (found : (scanHeaders n buf pos len body).body = some q) : pos + 5 ≤ q := by
  induction n generalizing buf pos len body with
  | zero => exact absurd blank (by simp [scanHeaders])
  | succ n ih =>
      obtain ⟨key, value, len', keyToken, valueToken, counted⟩ := exists_line_of_blank blank
      have keyBounds := strtok_bounds keyToken
      have valueBounds := strtok_bounds valueToken
      rw [scanHeaders_succ keyToken valueToken counted] at blank found
      split at blank
      case isTrue ends =>
        rw [if_pos ends] at found
        have last : value.stop + 3 = q := Option.some.inj found
        omega
      case isFalse goesOn =>
        rw [if_neg goesOn] at found
        have later := ih blank found
        omega

theorem headerEnds_congr {buf buf' : List UInt8} {n stop : Nat} (same : buf.take n = buf'.take n)
    (inside : stop + 3 < n) : headerEnds buf' stop = headerEnds buf stop := by
  have cell : ∀ i, i < n → buf'.getD i 0 = buf.getD i 0 := fun i => getD_congr same.symm
  unfold headerEnds
  rw [cell _ (by omega), cell _ (by omega), cell _ inside]

/-- A scan that finds the blank line reads and changes nothing behind it. -/
theorem scanHeaders_congr {n pos m q : Nat} {buf buf' : List UInt8} {len : Int} {body : Option Nat}
    (same : buf.take m = buf'.take m) (blank : (scanHeaders n buf pos len body).blank = true)
    (found : (scanHeaders n buf pos len body).body = some q) (inside : q < m) :
    (scanHeaders n buf' pos len body).postContentLen =
        (scanHeaders n buf pos len body).postContentLen ∧
      (scanHeaders n buf' pos len body).body = some q ∧
      (scanHeaders n buf' pos len body).buf.drop m = buf'.drop m := by
  induction n generalizing buf buf' pos len body with
  | zero => exact absurd blank (by simp [scanHeaders])
  | succ n ih =>
      obtain ⟨key, value, len', keyToken, valueToken, counted⟩ := exists_line_of_blank blank
      have keyBounds := strtok_bounds keyToken
      have valueBounds := strtok_bounds valueToken
      rw [scanHeaders_succ keyToken valueToken counted] at blank found ⊢
      -- the value ends before the blank line, also when the scan goes on
      have stops : value.stop + 3 ≤ q := by
        split at blank
        case isTrue ends =>
          rw [if_pos ends] at found
          exact Nat.le_of_eq (Option.some.inj found)
        case isFalse goesOn =>
          rw [if_neg goesOn] at found
          have later := scanHeaders_bound blank found
          omega
      have keyCut := key.take_cut same
      have valueCut := value.take_cut keyCut
      have kept : (value.cut (key.cut buf')).drop m = buf'.drop m := by
        rw [Token.drop_cut (by omega), Token.drop_cut (by omega)]
      rw [scanHeaders_succ (strtok_congr same keyToken (by omega))
        (strtok_congr keyCut valueToken (by omega)) counted,
        headerEnds_congr valueCut (by omega : value.stop + 3 < m)]
      split at blank
      case isTrue ends =>
        rw [if_pos ends] at found
        rw [if_pos ends, if_pos ends]
        exact ⟨rfl, found, kept⟩
      case isFalse goesOn =>
        rw [if_neg goesOn] at found
        rw [if_neg goesOn, if_neg goesOn]
        obtain ⟨counted, ends, rest⟩ := ih valueCut blank found
        exact ⟨counted, ends, rest.trans kept⟩

namespace RequestLine

theorem read_eq_some {buf : List UInt8} {line : RequestLine} (reads : read buf = some line) :
    strtok buf 0 (ascii " \t\r\n") = some line.method ∧
    strtok (line.method.cut buf) line.method.next (ascii " \t") = some line.uri ∧
    strtok (line.uri.cut (line.method.cut buf)) line.uri.next (ascii " \t\r\n") =
      some line.prot := by
  simp only [read, Option.bind_eq_bind, Option.bind_eq_some_iff, Option.pure_def] at reads
  obtain ⟨method, first, uri, second, prot, third, same⟩ := reads
  obtain rfl := Option.some.inj same
  exact ⟨first, second, third⟩

/-- A request line that ends before the first difference of two buffers is the same
in both. -/
theorem read_congr {buf buf' : List UInt8} {m : Nat} {line : RequestLine}
    (same : buf.take m = buf'.take m) (reads : read buf = some line)
    (inside : line.prot.next < m) :
    read buf' = some line ∧ (line.cut buf).take m = (line.cut buf').take m ∧
      (line.cut buf').drop m = buf'.drop m := by
  obtain ⟨first, second, third⟩ := read_eq_some reads
  have firstBounds := strtok_bounds first
  have secondBounds := strtok_bounds second
  have thirdBounds := strtok_bounds third
  have methodCut := line.method.take_cut same
  have uriCut := line.uri.take_cut methodCut
  refine ⟨?_, line.prot.take_cut uriCut, ?_⟩
  · simp only [read, strtok_congr same first (by omega), strtok_congr methodCut second (by omega),
      strtok_congr uriCut third (by omega), Option.bind_eq_bind, Option.bind_some, Option.pure_def]
  · unfold cut
    rw [Token.drop_cut (by omega), Token.drop_cut (by omega), Token.drop_cut (by omega)]

end RequestLine

/-- When the header of a request ends where the parser finds the blank line, the
parser gives the same for every buffer that starts with this header, and leaves
what follows the header as it was. -/
theorem esMsgParser_congr {buf buf' : List UInt8} {m : Nat} {p : Parsed}
    (same : buf.take m = buf'.take m) (length : buf.length = buf'.length)
    (ends : EndsHeaderAt buf m) (parses : esMsgParser buf = some p) :
    ∃ p', esMsgParser buf' = some p' ∧ p'.cmd = p.cmd ∧ p'.type = p.type ∧
      p'.contentLen = p.contentLen ∧ p'.payload = p.payload ∧ p'.buf.drop m = buf'.drop m ∧
      (0 < p.contentLen → p.payload = some m) := by
  obtain ⟨line, reads, post, blank, position⟩ := ends
  obtain ⟨q, found, rfl⟩ := Option.map_eq_some_iff.mp position
  have bound := scanHeaders_bound blank found
  obtain ⟨reads', cutSame, cutDrop⟩ := RequestLine.read_congr same reads (by omega)
  obtain ⟨counted, found', kept⟩ := scanHeaders_congr cutSame blank found (Nat.lt_succ_self q)
  have notGet : ¬ ascii "POST" = ascii "GET" := by decide
  unfold esMsgParser at parses ⊢
  simp only [reads, reads', notGet, post, if_true, if_false, found, found', counted,
    ← length] at parses ⊢
  split at parses
  case isTrue => exact absurd parses (by simp)
  case isFalse nonneg =>
    rw [if_neg nonneg]
    split at parses
    case isTrue zero =>
      rw [if_pos zero]
      obtain rfl := Option.some.inj parses
      exact ⟨_, rfl, rfl, rfl, rfl, rfl, kept.trans cutDrop,
        fun positive => absurd positive (by simp)⟩
    case isFalse positive =>
      rw [if_neg positive]
      split at parses
      case isTrue inside =>
        rw [if_pos inside]
        obtain rfl := Option.some.inj parses
        exact ⟨_, rfl, rfl, rfl, rfl, rfl, kept.trans cutDrop, fun _ => rfl⟩
      case isFalse => exact absurd parses (by simp)

end StDevice.Easysetup.Http
