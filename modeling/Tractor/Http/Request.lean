import Tractor.Buffer.Basic

/-!
`include/tractor/HttpRequest.h`: the request a parser fills in.

Strings are byte lists and `std::map` is the ordered map of the standard library.
A member the constructor leaves alone holds no value yet, so the receive time is
an `Option`.

* `HttpRequest.setMethod`: the only setter with an assertion, that no method was
  set before.
* `HttpRequest.addHeader`: one header line, split at its colon, with the white
  space around the value removed.
* `HttpRequest.swap`: exchanges every member but the receive time, which it only
  copies.
-/

namespace Tractor

open Library

/-- `HttpRequest::Method`. -/
inductive Method where
  | kInvalid
  | kGet
  | kPost
  | kHead
  | kPut
  | kDelete
  | kTrace
  | kOptions
  deriving DecidableEq, Repr

/-- `HttpRequest::Version`. -/
inductive Version where
  | kUnknown
  | kHttp10
  | kHttp11
  deriving DecidableEq, Repr

/-- The assertions on the path of a request: the one of `setMethod`, and those of the
input buffer. -/
inductive HttpFault where
  | setMethod
  | buffer (f : BufferFault)
  deriving DecidableEq, Repr

/-- `class HttpRequest`. -/
structure HttpRequest where
  version : Version
  method : Method
  path : List Byte
  query : List Byte
  receiveTime : Option ℤ
  headers : Std.ExtTreeMap (List Byte) (List Byte)

/-- `isspace` in the C locale. -/
def isspace (c : Byte) : Bool := c == 32 || (9 ≤ c && c ≤ 13)

namespace HttpRequest

/-- `HttpRequest::HttpRequest()`, which leaves the receive time alone. -/
def new : HttpRequest where
  version := .kUnknown
  method := .kInvalid
  path := []
  query := []
  receiveTime := none
  headers := ∅

/-- The method a token names. -/
def methodOf (m : List Byte) : Method :=
  if m = ascii "GET" then .kGet
  else if m = ascii "POST" then .kPost
  else if m = ascii "HEAD" then .kHead
  else if m = ascii "PUT" then .kPut
  else if m = ascii "DELETE" then .kDelete
  else if m = ascii "TRACE" then .kTrace
  else if m = ascii "OPTIONS" then .kOptions
  else .kInvalid

/-- `setMethod(start, end)` on the bytes of the token: whether the method is known. -/
def setMethod (r : HttpRequest) (m : List Byte) : Except HttpFault (Bool × HttpRequest) := do
  check (r.method = .kInvalid) .setMethod
  let r' := { r with method := methodOf m }
  pure (decide (r'.method ≠ .kInvalid), r')

def setVersion (r : HttpRequest) (v : Version) : HttpRequest := { r with version := v }

def setPath (r : HttpRequest) (p : List Byte) : HttpRequest := { r with path := p }

def setQuery (r : HttpRequest) (q : List Byte) : HttpRequest := { r with query := q }

def setReceiveTime (r : HttpRequest) (t : ℤ) : HttpRequest := { r with receiveTime := some t }

/-- `addHeader(start, colon, end)` on the line and the offset of its colon. -/
def addHeader (r : HttpRequest) (line : List Byte) (colon : ℕ) : HttpRequest :=
  let field := line.take colon
  let value := ((line.drop (colon + 1)).dropWhile isspace).rdropWhile isspace
  { r with headers := r.headers.insert field value }

def getHeader (r : HttpRequest) (field : List Byte) : List Byte := r.headers[field]?.getD []

/-- `this->swap(that)`: both requests afterwards.  The receive time of `that` stays. -/
def swap (this that : HttpRequest) : HttpRequest × HttpRequest :=
  ({ version := that.version, method := that.method, path := that.path, query := that.query
     receiveTime := that.receiveTime, headers := that.headers },
   { version := this.version, method := this.method, path := this.path, query := this.query
     receiveTime := that.receiveTime, headers := this.headers })

end HttpRequest

end Tractor
