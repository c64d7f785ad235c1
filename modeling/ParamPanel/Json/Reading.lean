import ParamPanel.Json.Token

/-!
# Readings

A reading is a text as far as it is JSON: a value in which an array, an object or a member may break
off where the text stops being JSON. Whoever takes a reading apart from front to back meets what is
wrong with the text in the order in which it stands there.

Tokens are read one by one with the containers that are still open as a stack, so nesting may be as
deep as the text is long.
-/

namespace ParamPanel.Json

/-- How an array or an object ends: as it should, or at a token that does not fit. -/
inductive Ending where
  | closed
  | brokenOff (token : Token)
deriving DecidableEq

/-- A text as far as it is JSON. -/
inductive Reading where
  | missing
  | null
  | bool (flag : Bool)
  | number (value : Option Numeral)
  | string (value : Option String)
  | array (items : List Reading) (ending : Ending)
  | object (members : List (Option String × Reading)) (ending : Ending)

/-- A container that is still open, with what is in it, the last first. The value of the last
member is missing until it has been read. -/
inductive Frame where
  | array (items : List Reading)
  | object (members : List (Option String × Reading))

namespace Frame

/-- Puts a value in: as the next item, or as the value of the last member. -/
def put (value : Reading) : Frame → Frame
  | array items => array (value :: items)
  | object [] => object []
  | object ((key, _) :: members) => object ((key, value) :: members)

def putKey (key : Option String) : Frame → Frame
  | array items => array items
  | object members => object ((key, .missing) :: members)

def close (ending : Ending) : Frame → Reading
  | array items => .array items.reverse ending
  | object members => .object members.reverse ending

end Frame

/-- What may come next in the innermost open container. -/
inductive Awaited where
  | value
  | itemOrClose
  | key
  | keyOrClose
  | colon
  | commaOrClose
deriving DecidableEq, Repr

/-- A text read so far: in the middle of it, or through with its value. Behind the value nothing
more may come. -/
inductive Reader where
  | within (awaited : Awaited) (frames : List Frame)
  | behind (value : Reading) (clean : Bool)

namespace Reader

def start : Reader := within .value []

def completed (value : Reading) : List Frame → Reader
  | [] => behind value true
  | frame :: frames => within .commaOrClose (frame.put value :: frames)

/-- A value in which all open containers break off. -/
def abandon (value : Reading) : List Frame → Reading
  | [] => value
  | frame :: frames => abandon ((frame.put value).close (.brokenOff .malformed)) frames

/-- Gives up at a token that does not fit. -/
def stop (token : Token) : List Frame → Reader
  | [] => behind .missing false
  | frame :: frames => behind (abandon (frame.close (.brokenOff token)) frames) false

/-- Goes on at a token where a value may start. -/
def value (frames : List Frame) : Token → Reader
  | .null => completed .null frames
  | .bool flag => completed (.bool flag) frames
  | .number n => completed (.number n) frames
  | .string s => completed (.string s) frames
  | .arrayOpen => within .itemOrClose (.array [] :: frames)
  | .objectOpen => within .keyOrClose (.object [] :: frames)
  | token => stop token frames

/-- Goes on at a token where a key has to stand. -/
def key (frames : List Frame) : Token → Reader
  | .string s =>
    match frames with
    | [] => stop (.string s) []
    | frame :: frames => within .colon (frame.putKey s :: frames)
  | token => stop token frames

/-- Goes on behind the end of the innermost container. -/
def closed : List Frame → Reader
  | [] => stop .malformed []
  | frame :: frames => completed (frame.close .closed) frames

/-- Goes on behind an item or a member. -/
def separator (frames : List Frame) (token : Token) : Reader :=
  match frames, token with
  | .array _ :: _, .comma => within .value frames
  | .array _ :: _, .arrayClose => closed frames
  | .object _ :: _, .comma => within .key frames
  | .object _ :: _, .objectClose => closed frames
  | _, _ => stop token frames

def step (reader : Reader) (token : Token) : Reader :=
  match reader with
  | behind value _ => behind value false
  | within .value frames => value frames token
  | within .itemOrClose frames =>
    if token = .arrayClose then closed frames else value frames token
  | within .key frames => key frames token
  | within .keyOrClose frames =>
    if token = .objectClose then closed frames else key frames token
  | within .colon frames => if token = .colon then within .value frames else stop token frames
  | within .commaOrClose frames => separator frames token

/-- The value read, and whether the text ended with it. A text that ends early breaks off. -/
def finish : Reader → Reading × Bool
  | behind value clean => (value, clean)
  | within _ frames =>
    match stop .malformed frames with
    | behind value clean => (value, clean)
    | within _ _ => (.missing, false)

end Reader

/-- The value at the start of a text, and whether nothing but blanks follows it. -/
def Reading.ofText (text : List Char) : Reading × Bool :=
  ((tokens text).foldl Reader.step .start).finish

def Ending.isClosed : Ending → Bool
  | closed => true
  | brokenOff _ => false

namespace Reading

mutual

/-- Whether all of a value is there. A `strict` reader also wants every string and number in it to
have a value, and at most `depth` containers open at a time. -/
def isWhole (strict : Bool) (depth : Nat) : Reading → Bool
  | missing => false
  | null => true
  | bool _ => true
  | number value => !strict || value.isSome
  | string value => !strict || value.isSome
  | array items ending =>
    (!strict || 0 < depth) && ending.isClosed && areWhole strict (depth - 1) items
  | object members ending =>
    (!strict || 0 < depth) && ending.isClosed && membersAreWhole strict (depth - 1) members

def areWhole (strict : Bool) (depth : Nat) : List Reading → Bool
  | [] => true
  | item :: items => item.isWhole strict depth && areWhole strict depth items

def membersAreWhole (strict : Bool) (depth : Nat) : List (Option String × Reading) → Bool
  | [] => true
  | (key, value) :: members =>
    (!strict || key.isSome) && value.isWhole strict depth && membersAreWhole strict depth members

end

end Reading

end ParamPanel.Json
