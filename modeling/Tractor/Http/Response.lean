import Tractor.Buffer.Basic

/-!
`HttpResponse`: `include/tractor/HttpResponse.h` and the encoder of
`src/HttpResponse.cpp`.

The encoder formats two lines into a scratch array of 32 bytes; `snprintf` cuts
what does not fit, so `appendToBuffer` does too.
-/

namespace Tractor

/-- `HttpResponse::HttpStatusCode`. -/
inductive HttpStatusCode where
  | kUnknown
  | k200Ok
  | k301MovedPermanently
  | k400BadRequest
  | k404NotFound
  deriving DecidableEq, Repr

/-- The value of the enumerator. -/
def HttpStatusCode.toNat : HttpStatusCode → ℕ
  | kUnknown => 0
  | k200Ok => 200
  | k301MovedPermanently => 301
  | k400BadRequest => 400
  | k404NotFound => 404

/-- `class HttpResponse`. -/
structure HttpResponse where
  headers : Std.ExtTreeMap (List Byte) (List Byte)
  statusCode : HttpStatusCode
  statusMessage : List Byte
  closeConnection : Bool
  body : List Byte

namespace HttpResponse

/-- `HttpResponse(close)`. -/
def new (close : Bool) : HttpResponse := ⟨∅, .kUnknown, [], close, []⟩

def setStatusCode (r : HttpResponse) (code : HttpStatusCode) : HttpResponse :=
  { r with statusCode := code }

def setStatusMessage (r : HttpResponse) (message : List Byte) : HttpResponse :=
  { r with statusMessage := message }

def setCloseConnection (r : HttpResponse) (on : Bool) : HttpResponse :=
  { r with closeConnection := on }

def addHeader (r : HttpResponse) (key value : List Byte) : HttpResponse :=
  { r with headers := r.headers.insert key value }

def setContentType (r : HttpResponse) (contentType : List Byte) : HttpResponse :=
  r.addHeader (ascii "Content-Type") contentType

def setBody (r : HttpResponse) (body : List Byte) : HttpResponse := { r with body := body }

/-- The text `snprintf` leaves in an array of `size` bytes, the closing zero aside. -/
def snprintf (size : ℕ) (text : List Byte) : List Byte := text.take (size - 1)

/-- `appendToBuffer(output)` on the readable bytes of the buffer. -/
def appendToBuffer (r : HttpResponse) (output : List Byte) : List Byte :=
  let output := output ++ snprintf 32 (ascii s!"HTTP/1.1 {r.statusCode.toNat} ")
  let output := output ++ r.statusMessage ++ ascii "\r\n"
  let output :=
    if r.closeConnection then output ++ ascii "Connection: close\r\n"
    else output ++ snprintf 32 (ascii s!"Content-Length: {r.body.length}\r\n") ++
      ascii "Connection: Keep-Alive\r\n"
  let output := output ++
    r.headers.toList.flatMap fun header => header.1 ++ ascii ": " ++ header.2 ++ ascii "\r\n"
  output ++ ascii "\r\n" ++ r.body

end HttpResponse

end Tractor
