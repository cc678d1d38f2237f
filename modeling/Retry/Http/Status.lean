namespace Retry.Http

structure Status where
  code : Nat
  deriving DecidableEq, Repr

namespace Status

def ofCode? (n : Nat) : Option Status := if 100 ≤ n ∧ n < 1000 then some ⟨n⟩ else none

/-- Codes worth a retry; 524 is an edge server's word that the origin timed out. -/
def transientCodes : List Nat := [503, 429, 502, 504, 408, 524]

def permanentCodes : List Nat :=
  [400, 401, 403, 404, 405, 406, 407, 409, 411, 412, 413, 414, 415, 416, 417, 418, 421, 422, 428,
    431, 451, 501, 505, 508, 510, 511]

def isTransient (s : Status) : Bool := transientCodes.contains s.code

def isPermanent (s : Status) : Bool := permanentCodes.contains s.code

/-- Whether a listed code is worth a retry; `none` for a code that no list holds. -/
def listed? (s : Status) : Option Bool :=
  if s.isTransient then some true
  else if s.isPermanent then some false
  else none

def phrases : List (Nat × String) := [
  (100, "Continue"), (101, "Switching Protocols"), (102, "Processing"), (103, "Early Hints"),
  (200, "OK"), (201, "Created"), (202, "Accepted"), (203, "Non Authoritative Information"),
  (204, "No Content"), (205, "Reset Content"), (206, "Partial Content"), (207, "Multi-Status"),
  (208, "Already Reported"), (226, "IM Used"), (300, "Multiple Choices"),
  (301, "Moved Permanently"), (302, "Found"), (303, "See Other"), (304, "Not Modified"),
  (305, "Use Proxy"), (307, "Temporary Redirect"), (308, "Permanent Redirect"),
  (400, "Bad Request"), (401, "Unauthorized"), (402, "Payment Required"), (403, "Forbidden"),
  (404, "Not Found"), (405, "Method Not Allowed"), (406, "Not Acceptable"),
  (407, "Proxy Authentication Required"), (408, "Request Timeout"), (409, "Conflict"),
  (410, "Gone"), (411, "Length Required"), (412, "Precondition Failed"),
  (413, "Payload Too Large"), (414, "URI Too Long"), (415, "Unsupported Media Type"),
  (416, "Range Not Satisfiable"), (417, "Expectation Failed"), (418, "I'm a teapot"),
  (421, "Misdirected Request"), (422, "Unprocessable Entity"), (423, "Locked"),
  (424, "Failed Dependency"), (425, "Too Early"), (426, "Upgrade Required"),
  (428, "Precondition Required"), (429, "Too Many Requests"),
  (431, "Request Header Fields Too Large"), (451, "Unavailable For Legal Reasons"),
  (500, "Internal Server Error"), (501, "Not Implemented"), (502, "Bad Gateway"),
  (503, "Service Unavailable"), (504, "Gateway Timeout"), (505, "HTTP Version Not Supported"),
  (506, "Variant Also Negotiates"), (507, "Insufficient Storage"), (508, "Loop Detected"),
  (510, "Not Extended"), (511, "Network Authentication Required")]

def phrase (s : Status) : String := (phrases.lookup s.code).getD "<unknown status code>"

def text (s : Status) : String := toString s.code ++ " " ++ s.phrase

end Status

end Retry.Http
