import TinyNetwork.Base.Decimal
import TinyNetwork.Net.Buffer

/-!
# `HttpResponse`

A response, and how it is written into a buffer.

## Main results

* `appendToBuffer_eq_ok` : the buffer grows by exactly the pieces of the response.
-/

namespace TinyNetwork

/-- `enum HttpStatusCode`. -/
inductive HttpResponse.HttpStatusCode where
  | kUnknown | k200Ok | k301MovedPermanently | k400BadRequest | k404NotFound
  deriving DecidableEq, Repr

/-- `class HttpResponse`. -/
structure HttpResponse where
  /-- The `unordered_map` of the headers, in the order of iteration. -/
  headers : List (List UInt8 × List UInt8)
  statusCode : HttpResponse.HttpStatusCode
  statusMessage : List UInt8
  closeConnection : Bool
  body : List UInt8
  deriving DecidableEq, Repr

namespace HttpResponse

/-- The number of a status code. -/
def HttpStatusCode.number : HttpStatusCode → ℕ
  | .kUnknown => 0
  | .k200Ok => 200
  | .k301MovedPermanently => 301
  | .k400BadRequest => 400
  | .k404NotFound => 404

/-- `HttpResponse(close)`. -/
def new (close : Bool) : HttpResponse where
  headers := []
  statusCode := .kUnknown
  statusMessage := []
  closeConnection := close
  body := []

def setStatusCode (r : HttpResponse) (code : HttpStatusCode) : HttpResponse :=
  { r with statusCode := code }

def setStatusMessage (r : HttpResponse) (message : List UInt8) : HttpResponse :=
  { r with statusMessage := message }

def setCloseConnection (r : HttpResponse) (on : Bool) : HttpResponse :=
  { r with closeConnection := on }

/-- The byte strings `appendToBuffer` appends, in order. -/
def pieces (r : HttpResponse) : List (List UInt8) :=
  [snprintf 32 (ascii "HTTP/1.1 " ++ decimal r.statusCode.number ++ ascii " "), r.statusMessage,
    crlf] ++
  (if r.closeConnection then [ascii "Connection: close\r\n"]
    else [snprintf 32 (ascii "Content-Length: " ++ decimal r.body.length ++ crlf),
      ascii "Connection: Keep-Alive\r\n"]) ++
  r.headers.flatMap (fun header => [header.1, ascii ": ", header.2, crlf]) ++
  [crlf, r.body]

/-- `appendToBuffer(output)`. -/
def appendToBuffer (r : HttpResponse) (output : Buffer) : Except Fault Buffer :=
  r.pieces.foldlM Buffer.append output

/-- Appending one piece after the other appends all of them. -/
theorem foldlM_append_eq_ok {ps : List (List UInt8)} {b b' : Buffer} (hwf : b.Wf)
    (h : ps.foldlM Buffer.append b = .ok b') : b'.Wf ∧ b'.readable = b.readable ++ ps.flatten := by
  induction ps generalizing b with
  | nil =>
    cases h
    exact ⟨hwf, by simp⟩
  | cons p ps ih =>
    rw [List.foldlM_cons] at h
    obtain ⟨b₁, happ, hrest⟩ := bind_eq_ok.1 h
    obtain ⟨hwf₁, hread₁⟩ := hwf.append happ
    obtain ⟨hwf', hread'⟩ := ih hwf₁ hrest
    exact ⟨hwf', by rw [hread', hread₁, List.flatten_cons, List.append_assoc]⟩

/-- **A response is written behind what the buffer holds.** -/
theorem appendToBuffer_eq_ok {r : HttpResponse} {output b : Buffer} (hwf : output.Wf)
    (h : r.appendToBuffer output = .ok b) :
    b.Wf ∧ b.readable = output.readable ++ r.pieces.flatten :=
  foldlM_append_eq_ok hwf h

example : (new true).pieces.flatten = ascii "HTTP/1.1 0 \r\nConnection: close\r\n\r\n" := by
  decide +kernel

end HttpResponse

end TinyNetwork
