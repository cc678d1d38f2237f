import Retry.Http.Headers

namespace Retry.Http

/-- The media type without its parameters, in lower case; none if the field is missing, unreadable
or empty. -/
def mediaType? (h : Headers) : Option String :=
  (h.text? "content-type").bind fun cs =>
    let essence := Text.trim (cs.takeWhile (· ≠ ';'))
    if essence.isEmpty then none else some (String.ofList (Text.lower essence))

inductive Format where
  | json
  | xml
  deriving DecidableEq, Repr

def endsWith (media suffix : String) : Bool := suffix.toList.isSuffixOf media.toList

def formatOf? (media : String) : Option Format :=
  if media = "application/json" || endsWith media "+json" then some .json
  else if media = "application/xml" || media = "text/xml" || endsWith media "+xml" then some .xml
  else none

end Retry.Http
