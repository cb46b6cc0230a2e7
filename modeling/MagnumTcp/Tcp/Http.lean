import MagnumTcp.Tcp.Handler
import MagnumTcp.Lib.Search

namespace MagnumTcp.Tcp

/-! ## Text -/

-- A `&str` is its bytes.
def ascii (text : String) : Bytes := text.toList.map fun c => BitVec.ofNat 8 c.toNat

-- The ranges of the bytes that follow the first byte of a character.
def utf8Follow (first : U8) : Option (List (U8 × U8)) :=
  let tail := (0x80#8, 0xbf#8)
  if first ≤ 0x7f#8 then some []
  else if first < 0xc2#8 then none
  else if first ≤ 0xdf#8 then some [tail]
  else if first = 0xe0#8 then some [(0xa0#8, 0xbf#8), tail]
  else if first = 0xed#8 then some [(0x80#8, 0x9f#8), tail]
  else if first ≤ 0xef#8 then some [tail, tail]
  else if first = 0xf0#8 then some [(0x90#8, 0xbf#8), tail, tail]
  else if first ≤ 0xf3#8 then some [tail, tail, tail]
  else if first = 0xf4#8 then some [(0x80#8, 0x8f#8), tail, tail]
  else none

def validFrom : List (U8 × U8) → Bytes → Bool
  | follow, [] => follow.isEmpty
  | (lo, hi) :: follow, b :: rest => lo ≤ b && b ≤ hi && validFrom follow rest
  | [], b :: rest =>
      match utf8Follow b with
      | some follow => validFrom follow rest
      | none => false

def validUtf8 (raw : Bytes) : Bool := validFrom [] raw

def firstLine (text : Bytes) : Bytes :=
  match Search.find [0x0a#8] text with
  | none => text
  | some i =>
      let line := text.take i
      if line.getLast? = some 0x0d#8 then line.dropLast else line

-- The characters with the Unicode property `White_Space`.
def whitespaces : List Bytes :=
  [[0x09#8], [0x0a#8], [0x0b#8], [0x0c#8], [0x0d#8], [0x20#8], [0xc2#8, 0x85#8], [0xc2#8, 0xa0#8],
    [0xe1#8, 0x9a#8, 0x80#8], [0xe2#8, 0x80#8, 0x80#8], [0xe2#8, 0x80#8, 0x81#8],
    [0xe2#8, 0x80#8, 0x82#8], [0xe2#8, 0x80#8, 0x83#8], [0xe2#8, 0x80#8, 0x84#8],
    [0xe2#8, 0x80#8, 0x85#8], [0xe2#8, 0x80#8, 0x86#8], [0xe2#8, 0x80#8, 0x87#8],
    [0xe2#8, 0x80#8, 0x88#8], [0xe2#8, 0x80#8, 0x89#8], [0xe2#8, 0x80#8, 0x8a#8],
    [0xe2#8, 0x80#8, 0xa8#8], [0xe2#8, 0x80#8, 0xa9#8], [0xe2#8, 0x80#8, 0xaf#8],
    [0xe2#8, 0x81#8, 0x9f#8], [0xe3#8, 0x80#8, 0x80#8]]

def whitespaceWidth (text : Bytes) : Nat :=
  ((whitespaces.find? fun space => space.isPrefixOf text).map List.length).getD 0

-- The first argument counts the bytes of a white space that are still to be passed over.
def splitFrom : Nat → Bytes → Bytes → List Bytes
  | _, word, [] => [word]
  | skip + 1, word, _ :: rest => splitFrom skip word rest
  | 0, word, b :: rest =>
      match whitespaceWidth (b :: rest) with
      | 0 => splitFrom 0 (word ++ [b]) rest
      | width + 1 => word :: splitFrom width [] rest

def splitWhitespace (text : Bytes) : List Bytes :=
  (splitFrom 0 [] text).filter fun word => !word.isEmpty

/-! ## The router -/

abbrev Route := Bytes × Bytes

def getRoot : Route := (ascii "GET", ascii "/")
def getEcho : Route := (ascii "GET", ascii "/echo")
def getTime : Route := (ascii "GET", ascii "/time")
def postRoot : Route := (ascii "POST", ascii "/")

def requestLine (req : Bytes) : Route :=
  let parts := splitWhitespace (firstLine req)
  (parts[0]?.getD (ascii "GET"), parts[1]?.getD (ascii "/"))

def headerEnd : Bytes := [0x0d#8, 0x0a#8, 0x0d#8, 0x0a#8]

def postBody (req : Bytes) : Bytes :=
  req.drop (((Search.find headerEnd req).map (· + 4)).getD req.length)

def greeting : Bytes := ascii "Hello from Magnum-TCP!\r\n"

-- `secs` is what the clock shows, in seconds since 1970.
def httpBody (secs : Nat) (route : Route) (req : Bytes) : Bytes :=
  if route = getRoot then greeting
  else if route = getEcho then req
  else if route = getTime then ascii "Unix timestamp: " ++ ascii (toString secs) ++ ascii "\r\n"
  else if route = postRoot then ascii "You posted: " ++ postBody req ++ ascii "\r\n"
  else ascii "404 Not Found: " ++ route.1 ++ ascii " " ++ route.2 ++ ascii "\r\n"

def httpStatus (route : Route) : Bytes :=
  if route.2 = ascii "/" ∨ route = getEcho ∨ route = getTime ∨ route = postRoot then ascii "200 OK"
  else ascii "404 Not Found"

def httpResponse (status body : Bytes) : Bytes :=
  ascii "HTTP/1.1 " ++ status ++ ascii "\r\nContent-Type: text/plain\r\nContent-Length: " ++
    ascii (toString body.length) ++ ascii "\r\nConnection: close\r\n\r\n" ++ body

-- `unwrap_or("")`: a request that is not text is read as an empty one.
def requestText (request : Bytes) : Bytes := if validUtf8 request then request else []

def buildHttpResponse (secs : Nat) (request : Bytes) : Bytes :=
  let req := requestText request
  let route := requestLine req
  httpResponse (httpStatus route) (httpBody secs route req)

/-! ## The loop of the handler -/

namespace Handler

def round (respond : Bytes → Bytes) (h : Handler) (chunk : Bytes) : Handler × List Bytes :=
  let h := h.receive respond chunk
  match h.phase with
  | .replying resp => ({ h with phase := .reading, responded := true }, [resp])
  | _ => (h, [])

def loop (respond : Bytes → Bytes) : Handler → List Bytes → Handler × List Bytes
  | h, [] => (h, [])
  | h, chunk :: rest =>
      let (h, sent) := h.round respond chunk
      let (h, later) := loop respond h rest
      (h, sent ++ later)

end Handler

-- What is sent on `send_tx` for the chunks that arrive on `data_rx`.
def handleConnection (secs : Nat) (chunks : List Bytes) : List Bytes :=
  (Handler.start.loop (buildHttpResponse secs) chunks).2

end MagnumTcp.Tcp
