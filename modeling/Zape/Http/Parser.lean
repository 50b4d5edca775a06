import Zape.Machine.Bytes
import Mathlib.Data.List.Basic

/-! `llhttp`, as far as the server depends on it. -/
namespace ZapeModel

open Machine

/-- The error codes the server tells apart, and the others. -/
inductive Errno
  | ok
  | user
  | pausedUpgrade
  | other (code : Nat)
  deriving DecidableEq, Repr

/-- A callback of `llhttp_settings_t` that the server sets, with the span it gets. -/
inductive Callback
  | url (span : List Byte)
  | headerField (span : List Byte)
  | headerValue (span : List Byte)
  | headerFieldComplete
  | headerValueComplete
  | headersComplete
  | body (span : List Byte)
  | messageComplete
  deriving DecidableEq, Repr

/-- The generated parser: what it does with some bytes as long as every callback returns zero. -/
class Llhttp where
  Parser : Type
  init : Parser
  run : Parser → List Byte → Parser × List Callback × Errno

/-- `llhttp_t`: the generated state and the error that lingers in it. -/
structure LlhttpState [Llhttp] where
  current : Llhttp.Parser
  error : Errno := .ok

namespace Llhttp

variable [Llhttp]

/-- Reads that all end with `HPE_OK`, and the callbacks they lead to. -/
inductive Continues : Parser → List (List Byte) → List Callback → Parser → Prop
  | nil (parser : Parser) : Continues parser [] [] parser
  | cons {parser next last : Parser} {read : List Byte} {reads : List (List Byte)} {calls rest : List Callback}
      (first : run parser read = (next, calls, .ok)) (others : Continues next reads rest last) :
      Continues parser (read :: reads) (calls ++ rest) last

end Llhttp

/-- A header as it is reported: its name and its value, each in any number of spans. -/
structure ReportedHeader where
  field : List (List Byte)
  value : List (List Byte)

namespace ReportedHeader

def calls (header : ReportedHeader) : List Callback :=
  header.field.map .headerField ++ .headerFieldComplete :: header.value.map .headerValue ++ [.headerValueComplete]

end ReportedHeader

/-- A request as it is reported. No span of the body is empty. -/
structure ReportedRequest where
  target : List (List Byte)
  headers : List ReportedHeader
  content : List (List Byte)
  nonempty : ∀ span ∈ content, span ≠ []

theorem no_spans : ∀ span ∈ ([] : List (List Byte)), span ≠ [] := by simp

/-- What a request says, however it is reported. -/
structure RequestContent where
  url : List Byte
  headers : List (List Byte × List Byte)
  body : List Byte

namespace ReportedRequest

def meaning (request : ReportedRequest) : RequestContent where
  url := request.target.flatten
  headers := request.headers.map fun header => (header.field.flatten, header.value.flatten)
  body := request.content.flatten

/-- Everything reported before the message is complete. -/
def head (request : ReportedRequest) : List Callback :=
  request.target.map .url ++ request.headers.flatMap ReportedHeader.calls ++ .headersComplete ::
    request.content.map .body

def calls (request : ReportedRequest) : List Callback := request.head ++ [.messageComplete]

/-- A chunked body may be followed by more header fields. -/
def trailed (request : ReportedRequest) (trailers : List ReportedHeader) : List Callback :=
  request.head ++ trailers.flatMap ReportedHeader.calls ++ [.messageComplete]

def fields (request : ReportedRequest) (trailers : List ReportedHeader) : List (List Byte × List Byte) :=
  (request.headers ++ trailers).map fun header => (header.field.flatten, header.value.flatten)

end ReportedRequest

namespace Llhttp

variable [Llhttp]

/-- However a stream that starts with these bytes is cut, the parser takes exactly them for a request with this
    content and pauses at their end. -/
def PausesAfter (bytes : List Byte) (content : RequestContent) : Prop :=
  ∀ pieces rest extra, (∀ piece ∈ pieces, piece ≠ []) → pieces.flatten ++ rest = bytes → rest ≠ [] →
    ∃ (reported : ReportedRequest) (early late : List Callback) (middle next : Parser),
      Continues init pieces early middle ∧ run middle (rest ++ extra) = (next, late, .pausedUpgrade) ∧
        early ++ late = reported.calls ∧ reported.meaning = content ∧ .messageComplete ∉ early

end Llhttp

end ZapeModel
