import ConnectionBroker.Uri.Basic

/-! # Paths

Dot segments are resolved while a path is read. The segments read so far form a stack; a double dot
takes the top away, unless that looks like a drive. After a dot segment at the end the path ends in
a slash. Tabs and line ends do not count in a path, save that one after the colon of a drive at the
root of a `file` path makes the drive a segment of its own.
-/

namespace ConnectionBroker.Uri.Path

structure Segment where
  text : List Char
  /-- Whether it starts with a drive that is set off from the text after it. -/
  detached : Bool := false
  deriving DecidableEq, Inhabited, Repr

/-! ## Dot segments -/

/-- The segment with every encoded dot decoded and nothing else. -/
def decodeDots : List Char → List Char
  | '%' :: '2' :: 'e' :: rest => '.' :: decodeDots rest
  | '%' :: '2' :: 'E' :: rest => '.' :: decodeDots rest
  | c :: rest => c :: decodeDots rest
  | [] => []

def isSingleDot (segment : List Char) : Bool :=
  decodeDots segment == ['.']

def isDoubleDot (segment : List Char) : Bool :=
  decodeDots segment == ['.', '.']

/-! ## Resolving -/

/-- The stack without its top; a drive stays. -/
def pop : List (List Char) → List (List Char)
  | [] => []
  | top :: rest => if startsWithDrive top then top :: rest else rest

/-- The stack with one more segment. In a `file` path a drive at the bottom is spelled with a
colon, and a detached one stands apart from what follows it. -/
def push (family : Family) : List (List Char) → Segment → List (List Char)
  | [], segment =>
      if family = .file && isDrive segment.text then [segment.text.take 1 ++ [':']]
      else if segment.detached then [segment.text.drop 2, segment.text.take 2]
      else [segment.text]
  | stack, segment => segment.text :: stack

/-- What a segment before the last one makes of the stack. -/
def step (family : Family) (stack : List (List Char)) (segment : Segment) : List (List Char) :=
  if isDoubleDot segment.text then pop stack
  else if isSingleDot segment.text then stack
  else push family stack segment

/-- What the last segment makes of the stack. -/
def lastStep (family : Family) (stack : List (List Char)) (segment : Segment) : List (List Char) :=
  if isDoubleDot segment.text || isSingleDot segment.text then [] :: step family stack segment
  else push family stack segment

/-- The segments of a path from the stack of those read and the list of those to come. -/
def resolve (family : Family) : (stack : List (List Char)) → List Segment → List (List Char)
  | stack, [] => stack.reverse
  | stack, [last] => (lastStep family stack last).reverse
  | stack, segment :: next :: rest => resolve family (step family stack segment) (next :: rest)

/-- The raw segments of a text: in a special scheme a backslash separates as well. -/
def segments (family : Family) (text : List Char) : List (List Char) :=
  Text.splitOn '/' (text.map fun c => if family.isSlash c then '/' else c)

/-- The path of segments: each with a slash before it. -/
def ofSegments (segments : List (List Char)) : List Char :=
  '/' :: Text.joinWith '/' segments

/-- The path that a text without its leading slash spells. -/
def read (family : Family) (text : List Char) : List Char :=
  ofSegments (resolve family [] ((segments family text).map fun segment => { text := segment }))

/-- The text without one leading slash. -/
def dropSlash (family : Family) : List Char → List Char
  | [] => []
  | c :: rest => if family.isSlash c then rest else c :: rest

/-- The path after an authority: it may be empty in a generic scheme only. -/
def afterAuthority (family : Family) (text : List Char) : List Char :=
  if text.isEmpty && !family.isSpecial then [] else read family (dropSlash family text)

/-! ## Paths of files -/

/-- The path with one slash at its start for all of them. -/
def trimSlashes (path : List Char) : List Char :=
  '/' :: path.dropWhile (· == '/')

/-- Whether a raw segment starts with a drive, something that does not count, and more text. -/
def isDetached (raw : List Char) : Bool :=
  match raw.dropWhile isIgnored with
  | [] => false
  | letter :: rest =>
      match rest.dropWhile isIgnored with
      | ':' :: next :: rest => letter.isAlpha && isIgnored next && rest.any (!isIgnored ·)
      | _ => false

def Segment.ofRaw (raw : List Char) : Segment :=
  { text := clean raw, detached := isDetached raw }

def fileSegments (text : List Char) : List Segment :=
  (segments .file text).map Segment.ofRaw

/-- The path of a file that a text spells. -/
def readFile (text : List Char) : List Char :=
  trimSlashes (ofSegments (resolve .file [] (fileSegments text)))

/-- Whether a drive is read as a segment at the bottom of the stack. -/
def readsDrive : (stack : List (List Char)) → List Segment → Bool
  | _, [] => false
  | stack, segment :: rest =>
      (stack.isEmpty && isDrive segment.text) || readsDrive (step .file stack segment) rest

/-- The text after one slash, if it starts with one. -/
def fileSlash? (text : List Char) : Option (List Char) :=
  match text.dropWhile isIgnored with
  | [] => none
  | c :: rest => if Family.file.isSlash c then some rest else none

end ConnectionBroker.Uri.Path
