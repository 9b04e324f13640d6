import StDevice.Easysetup.RefStep
import StDevice.Foundation.Decimal
import StDevice.Foundation.JsonText

/-!
# The text of a response

`http_msg_handler` sums up the length of its buffer from the parts of the text, counting the
digits of the content length in a loop of its own, and prints the parts into the buffer
afterwards. It prints in four places: a POST and a GET that succeed, and the two kinds of
errors. Allocations succeed here.
-/

namespace StDevice.Easysetup.Http

open CString Decimal

/-- `enum cgi_type`, with the type of what is no request. -/
inductive CgiType where
  | get | post | error
  deriving DecidableEq, Repr

/-- `CONNECTION_TYPE`, a setting of the build. -/
inductive ConnectionType where
  | close | keepAlive
  deriving DecidableEq, Repr

def ConnectionType.text : ConnectionType → List UInt8
  | close => ascii "close"
  | keepAlive => ascii "keep-alive"

def httpStatus200 : List UInt8 := ascii "HTTP/1.1 200 OK"
def httpStatus400 : List UInt8 := ascii "HTTP/1.1 400 Bad Request"
def httpStatus500 : List UInt8 := ascii "HTTP/1.1 500 Internal Server Error"

def httpHeader (connection : ConnectionType) : List UInt8 :=
  ascii "\r\nServer: SmartThings SDK Setup\r\nConnection: " ++ connection.text ++
    ascii "\r\nContent-Type: application/json\r\nContent-Length: "

def endOfHttpHeader : List UInt8 := ascii "\r\n\r\n"

def iotErrorEasysetup400Base : Int := -400
def iotErrorEasysetup500Base : Int := -500

def is400Error (err : Int) : Bool :=
  err ≤ iotErrorEasysetup400Base && err > iotErrorEasysetup500Base

/-- The loop of `digit_count_payload`. -/
def countDigits (payloadLen count : Nat) : Nat :=
  if payloadLen / 10 = 0 then count + 1 else countDigits (payloadLen / 10) (count + 1)
termination_by payloadLen

def digitCountPayload (payloadLen : Nat) : Nat := countDigits payloadLen 0

/-- What `snprintf` leaves before the terminator in a buffer of `n` bytes. -/
def snprintf (n : Nat) (text : List UInt8) : List UInt8 := text.take (n - 1)

/-- The buffer of a response, and the text in it. -/
structure Printed where
  bufferLen : Nat
  text : List UInt8
  deriving DecidableEq, Repr

/-- The length and the text of a response to a request that succeeds; lengths are
`unsigned int`. -/
def printSuccess (connection : ConnectionType) (payload : List UInt8) : Printed :=
  let payloadLen := strlen payload 0 % 2 ^ 32
  let bufferLen := (payloadLen + httpStatus200.length + (httpHeader connection).length +
    digitCountPayload payloadLen + endOfHttpHeader.length + 1) % 2 ^ 32
  ⟨bufferLen, snprintf bufferLen (httpStatus200 ++ httpHeader connection ++
    decimal payloadLen ++ endOfHttpHeader ++ cstr payload)⟩

/-- The same for an error, whose status line is counted last. -/
def printError (connection : ConnectionType) (err : Int) (ptr : List UInt8) : Printed :=
  let payloadLen := strlen ptr 0 % 2 ^ 32
  let bufferLen := ((httpHeader connection).length + digitCountPayload payloadLen + payloadLen +
    endOfHttpHeader.length + 1) % 2 ^ 32
  if is400Error err then
    let bufferLen := (bufferLen + httpStatus400.length) % 2 ^ 32
    ⟨bufferLen, snprintf bufferLen (httpStatus400 ++ httpHeader connection ++
      decimal payloadLen ++ endOfHttpHeader ++ cstr ptr)⟩
  else
    let bufferLen := (bufferLen + httpStatus500.length) % 2 ^ 32
    ⟨bufferLen, snprintf bufferLen (httpStatus500 ++ httpHeader connection ++
      decimal payloadLen ++ endOfHttpHeader ++ cstr ptr)⟩

/-- The payload of an error. -/
def errorPayload (err : Int) : Json :=
  .object [(ascii "error", .object [(ascii "code", Json.createNumber (Double.ofInt (-err)))])]

/-- What the request functions make of a request; other types are refused. -/
def genPayload (type : CgiType) (refStep : Nat) (cmd : Step) (dataBuf : Option (List UInt8))
    (outcome : Outcome) : Reply :=
  match type with
  | .post => iotEasysetupGenPostPayload refStep cmd dataBuf outcome
  | .get => iotEasysetupGenGetPayload refStep cmd outcome
  | .error => ⟨iotErrorEasysetupInvalidCmd, refStep, none⟩

/-- `http_msg_handler`. Where a request succeeds and there is no payload, an error is noted, but
the buffer stays as it is. -/
def httpMsgHandler (lib : JsonLibrary) (connection : ConnectionType) (type : CgiType)
    (refStep : Nat) (cmd : Step) (dataBuf : Option (List UInt8)) (outcome : Outcome) :
    Option Printed :=
  let reply := genPayload type refStep cmd dataBuf outcome
  if reply.err = 0 then reply.outPayload.map (printSuccess connection)
  else (lib.print (errorPayload reply.err)).map (printError connection reply.err)

/-! ## What a response is -/

/-- The status of a response. -/
inductive Status where
  | ok | badRequest | internalServerError
  deriving DecidableEq, Repr

def Status.line : Status → List UInt8
  | ok => httpStatus200
  | badRequest => httpStatus400
  | internalServerError => httpStatus500

/-- The status line, the headers, the length of the payload, an empty line and the payload. -/
def responseText (connection : ConnectionType) (status : Status) (payload : List UInt8) :
    List UInt8 :=
  status.line ++ httpHeader connection ++ decimal payload.length ++ endOfHttpHeader ++ payload

/-- The status and the payload that answer a request, if there is a payload. -/
def answer (lib : JsonLibrary) (reply : Reply) : Option (Status × List UInt8) :=
  if reply.err = 0 then reply.outPayload.map fun payload => (.ok, cstr payload)
  else (lib.print (errorPayload reply.err)).map fun ptr =>
    (if is400Error reply.err then .badRequest else .internalServerError, cstr ptr)

/-- The loop counts the digits that are printed. -/
theorem countDigits_eq (payloadLen count : Nat) :
    countDigits payloadLen count = count + (decimal payloadLen).length := by
  have digits (n : Nat) : (decimal n).length = (Nat.toDigits 10 n).length := by
    rw [decimal, if_neg (by omega), Int.natAbs_natCast, decimalNat, List.length_map]
  induction payloadLen, count using countDigits.induct with
  | case1 payloadLen count last =>
      have small : payloadLen < 10 := by omega
      rw [countDigits, if_pos last, digits, Nat.toDigits_of_lt_base small, List.length_singleton]
  | case2 payloadLen count more ih =>
      have large : 10 ≤ payloadLen := by omega
      have digit : payloadLen % 10 < 10 := Nat.mod_lt _ (by decide)
      have parts : Nat.toDigits 10 payloadLen =
          Nat.toDigits 10 (payloadLen / 10) ++ [(payloadLen % 10).digitChar] :=
        Nat.toDigits_of_base_le (by decide) large
      rw [countDigits, if_neg more, ih, digits, digits, parts, List.length_append,
        List.length_singleton]
      omega

theorem digitCountPayload_eq (payloadLen : Nat) :
    digitCountPayload payloadLen = (decimal payloadLen).length := by
  rw [digitCountPayload, countDigits_eq, Nat.zero_add]

/-- A buffer that has room for the text and the terminator. -/
theorem snprintf_of_room {n : Nat} {text : List UInt8} (room : n = text.length + 1) :
    snprintf n text = text := by
  rw [snprintf, room, Nat.add_sub_cancel, List.take_length]

/-- The parts of a text before its payload are short. -/
theorem length_httpHeader_le (connection : ConnectionType) :
    (httpHeader connection).length ≤ 110 := by
  cases connection <;> decide

theorem Status.length_line_le (status : Status) : status.line.length ≤ 34 := by
  cases status <;> decide

/-- The parts sum up to the length of the text. -/
theorem length_responseText (connection : ConnectionType) (status : Status)
    (payload : List UInt8) :
    (responseText connection status payload).length =
      status.line.length + (httpHeader connection).length + digitCountPayload payload.length +
        endOfHttpHeader.length + payload.length := by
  simp only [responseText, List.length_append, digitCountPayload_eq]

section

variable {payload : List UInt8}

/-- Neither the length of a payload nor that of its buffer wraps around. -/
theorem bufferLen_lt (connection : ConnectionType) (status : Status)
    (short : payload.length < 2 ^ 31) :
    (responseText connection status payload).length + 1 < 2 ^ 32 := by
  have header := length_httpHeader_le connection
  have line := status.length_line_le
  have digits : digitCountPayload payload.length ≤ 10 := by
    rw [digitCountPayload_eq]
    exact (length_decimal_le_iff (by decide)).mpr (by omega)
  have blank : endOfHttpHeader.length = 4 := by decide
  rw [length_responseText, blank]
  omega

/-- A payload as `strlen` and `%s` take it. -/
theorem strlen_mod (short : (cstr payload).length < 2 ^ 31) :
    strlen payload 0 % 2 ^ 32 = (cstr payload).length :=
  Nat.mod_eq_of_lt (Nat.lt_of_lt_of_le short (by decide))

/-- The buffer of a success has room for the text and its terminator. -/
theorem printSuccess_eq (connection : ConnectionType) (short : (cstr payload).length < 2 ^ 31) :
    printSuccess connection payload =
      ⟨(responseText connection .ok (cstr payload)).length + 1,
        responseText connection .ok (cstr payload)⟩ := by
  have fits := bufferLen_lt connection .ok short
  have sum : (cstr payload).length + httpStatus200.length + (httpHeader connection).length +
      digitCountPayload (cstr payload).length + endOfHttpHeader.length + 1 =
      (responseText connection .ok (cstr payload)).length + 1 := by
    rw [length_responseText, Status.line]
    omega
  rw [printSuccess, strlen_mod short, sum, Nat.mod_eq_of_lt fits]
  exact congrArg (Printed.mk _) (snprintf_of_room rfl)

/-- So has the buffer of an error, for either status. -/
theorem printError_eq (connection : ConnectionType) (err : Int)
    (short : (cstr payload).length < 2 ^ 31) :
    printError connection err payload =
      let status := if is400Error err then Status.badRequest else .internalServerError
      ⟨(responseText connection status (cstr payload)).length + 1,
        responseText connection status (cstr payload)⟩ := by
  have sum (status : Status) : ((httpHeader connection).length +
      digitCountPayload (cstr payload).length + (cstr payload).length +
      endOfHttpHeader.length + 1) % 2 ^ 32 + status.line.length =
      (responseText connection status (cstr payload)).length + 1 := by
    have fits := bufferLen_lt connection status short
    rw [length_responseText] at fits ⊢
    rw [Nat.mod_eq_of_lt (by omega)]
    omega
  have wraps (status : Status) : ((responseText connection status (cstr payload)).length + 1) %
      2 ^ 32 = (responseText connection status (cstr payload)).length + 1 :=
    Nat.mod_eq_of_lt (bufferLen_lt connection status short)
  rw [printError, strlen_mod short]
  dsimp only
  cases is400Error err with
  | true =>
      have total := sum .badRequest
      rw [Status.line] at total
      rw [if_pos rfl, if_pos rfl, total, wraps]
      exact congrArg (Printed.mk _) (snprintf_of_room rfl)
  | false =>
      have total := sum .internalServerError
      rw [Status.line] at total
      rw [if_neg Bool.false_ne_true, if_neg Bool.false_ne_true, total, wraps]
      exact congrArg (Printed.mk _) (snprintf_of_room rfl)

end

/-- What is answered is a whole response with the right length, in a buffer of the right size,
and what is answered is the payload of the request or the error. -/
theorem httpMsgHandler_eq (lib : JsonLibrary) (connection : ConnectionType) (type : CgiType)
    (refStep : Nat) (cmd : Step) (dataBuf : Option (List UInt8)) (outcome : Outcome)
    (short : ∀ status payload,
      answer lib (genPayload type refStep cmd dataBuf outcome) = some (status, payload) →
        payload.length < 2 ^ 31) :
    httpMsgHandler lib connection type refStep cmd dataBuf outcome =
      (answer lib (genPayload type refStep cmd dataBuf outcome)).map fun (status, payload) =>
        ⟨(responseText connection status payload).length + 1,
          responseText connection status payload⟩ := by
  generalize replyEq : genPayload type refStep cmd dataBuf outcome = reply at short ⊢
  rw [httpMsgHandler, replyEq]
  dsimp only
  rw [answer] at short ⊢
  by_cases success : reply.err = 0
  · rw [if_pos success] at short ⊢
    rw [if_pos success]
    cases found : reply.outPayload with
    | none => rfl
    | some payload =>
        rw [found] at short
        exact congrArg some (printSuccess_eq connection (short _ _ rfl))
  · rw [if_neg success] at short ⊢
    rw [if_neg success]
    obtain ⟨ptr, printed⟩ := Option.isSome_iff_exists.mp (lib.prints (errorPayload reply.err))
    rw [printed] at short ⊢
    exact congrArg some (printError_eq connection reply.err (short _ _ rfl))

/-- A library with the one document of a refused request. -/
def refusalLibrary : JsonLibrary where
  parse _ := none
  print _ := some (ascii "\x7b\"error\":\x7b\"code\":401\x7d\x7d")
  prints _ := rfl

theorem httpMsgHandler_eq_refusal :
    httpMsgHandler refusalLibrary .close .error 0 .deviceinfo none ⟨0, none, 0⟩ =
      some ⟨153, httpStatus400 ++ httpHeader .close ++ ascii "22" ++ endOfHttpHeader ++
        ascii "\x7b\"error\":\x7b\"code\":401\x7d\x7d"⟩ := by
  refine
    (httpMsgHandler_eq refusalLibrary .close .error 0 .deviceinfo none ⟨0, none, 0⟩ ?_).trans ?_
  · intro status payload answered
    have length : payload.length = 22 := by
      obtain ⟨-, rfl⟩ := Prod.mk.inj (Option.some.inj answered)
      decide
    omega
  · decide +kernel

end StDevice.Easysetup.Http
