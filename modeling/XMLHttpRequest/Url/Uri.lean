import XMLHttpRequest.Base.Bytes
import XMLHttpRequest.Library.Regex

/-
  How a request takes a URI apart (xmlhttprequest_impl.cpp).

  The patterns are those of the source, for a matcher that is
  leftmost and greedy and whose `.` accepts every character.

  Key definitions include:
    * `Network.protoIpPortUrlRegex`
    * `Network.checkHostPort`
    * `Network.proccessUri`
-/

------------------------------------------------------------
-- Patterns
------------------------------------------------------------

namespace Network

open Regex

/- The characters of a bracket expression. -/
def oneOf (accepted : Bytes) : Pattern UInt8 :=
  .char fun c => c ∈ accepted

def literal (c : Char) : Pattern UInt8 :=
  oneOf (ascii c.toString)

def lowerLetters : Bytes :=
  ascii "abcdefghijklmnopqrstuvwxyz"

def upperLetters : Bytes :=
  ascii "ABCDEFGHIJKLMNOPQRSTUVWXYZ"

def digits : Bytes :=
  ascii "0123456789"

/- Patterns one after another. -/
def inOrder :
    List (Pattern UInt8) → Pattern UInt8
  | [] => .repeated (.char fun _ => false) 0 none
  | [pattern] => pattern
  | pattern :: patterns => .seq pattern (inOrder patterns)

/-
  Lines begin after a line feed, a carriage return or a form
  feed and end before one, but not between the two characters
  of a carriage return with a line feed.
-/
def isLineBreak (c : UInt8) : Bool :=
  c = 10 || c = 13 || c = 12

def betweenCrLf (before rest : Bytes) : Bool :=
  before.head? = some 13 && rest.head? = some 10

def boostLineBreaks : LineBreaks UInt8 where
  startsLine before rest :=
    match before with
    | [] => true
    | c :: _ => isLineBreak c && ! betweenCrLf before rest
  endsLine before rest :=
    match rest with
    | [] => true
    | c :: _ => isLineBreak c && ! betweenCrLf before rest

/- `(^[https]{4,5})` -/
def regexGroupProtocol : Pattern UInt8 :=
  .group 1
    (.seq .lineStart
      (.repeated (oneOf (ascii "https")) 4 (some 5)))

/- `([0-9a-z\.:-]{3,})` -/
def regexAddressOrHostPort : Pattern UInt8 :=
  .group 2
    (.repeated
      (oneOf (digits ++ lowerLetters ++ ascii ".:-")) 3 none)

/- `(\/{0,1}.{0,})` -/
def addressTail : Pattern UInt8 :=
  .group 3
    (.seq (.repeated (literal '/') 0 (some 1))
      (.repeated (.char fun _ => true) 0 none))

/- `baseRegexp` followed by `addressTail` -/
def protoIpPortUrlRegex : Pattern UInt8 :=
  inOrder
    [regexGroupProtocol, literal ':', literal '/',
      literal '/', regexAddressOrHostPort, addressTail]

def alphanumerics : Bytes :=
  lowerLetters ++ upperLetters ++ digits

/- A letter or digit, or two of them around what is `inner`. -/
def hostLabel (inner : Bytes) : Pattern UInt8 :=
  .alt (oneOf alphanumerics)
    (inOrder
      [oneOf alphanumerics,
        .repeated (oneOf (alphanumerics ++ inner)) 0 none,
        oneOf alphanumerics])

/-
  `^(([a-zA-Z0-9]|[a-zA-Z0-9][a-zA-Z0-9\\-]*[a-zA-Z0-9])\.)*`
  and `([A-Za-z0-9]|[A-Za-z0-9][A-Za-z0-9\-]*[A-Za-z0-9])` and
  `:[0-9]+$`, in one line
-/
def checkHostPort : Pattern UInt8 :=
  inOrder
    [.lineStart,
      .repeated
        (.seq (hostLabel (ascii "\\-")) (literal '.')) 0
        none,
      hostLabel (ascii "-"), literal ':',
      .repeated (oneOf digits) 1 none, .lineEnd]

end Network

------------------------------------------------------------
-- Elements
------------------------------------------------------------

namespace Network

/- `XMLHttpRequest::Impl::Elements` -/
structure Elements where
  addr : Bytes
  port : Bytes
  protocol : Bytes
  urn : Bytes
  deriving DecidableEq, Repr

/- A text cut at its last colon, or `none` without one. -/
def splitLastColon (text : Bytes) : Option (Bytes × Bytes) :=
  let port := (text.reverse.takeWhile (· ≠ 58)).reverse
  if text.contains 58 then
    some
      (text.take (text.length - port.length - 1), port)
  else none

/- The host and the port of an address, if it has a port. -/
def hostAndPort (urlAddr : Bytes) : Bytes × Bytes :=
  match Regex.fullMatch boostLineBreaks checkHostPort
      urlAddr with
  | some _ => (splitLastColon urlAddr).getD (urlAddr, [])
  | none => (urlAddr, [])

/- `proccessUri` -/
def proccessUri (uri : Bytes) : Option Elements :=
  if uri = [] then none
  else
    (Regex.search boostLineBreaks protoIpPortUrlRegex
      uri).bind fun what =>
        let urlProtocol := what.capture 1
        let urlAddr := what.capture 2
        let urlTail := what.capture 3
        if urlProtocol = [] || urlAddr = [] then none
        else
          let (addr, urlPort) := hostAndPort urlAddr
          let port :=
            if urlPort = [] then
              if urlProtocol = ascii "https" then
                ascii "443"
              else ascii "80"
            else urlPort
          some
            { addr := addr
              port := port
              protocol := urlProtocol
              urn := urlTail }

end Network
