import TreeLens.Session.Config

/-!
# Input files

Files are bytes by name. A text file holds valid encoded text; a data file that does not
is no data.
-/

namespace TreeLens

def readText (content : Option (List UInt8)) : Except Failure String :=
  match content with
  | none => .error (.file .missing)
  | some bytes =>
    match String.fromUTF8? ⟨bytes.toArray⟩ with
    | none => .error (.file .notText)
    | some text => .ok text

def readData (content : Option (List UInt8)) : Except Failure Json :=
  match content with
  | none => .error (.file .missing)
  | some bytes =>
    match (String.fromUTF8? ⟨bytes.toArray⟩).bind Json.read? with
    | none => .error .malformedData
    | some value => .ok value

def readConfig (content : Option (List UInt8)) : Except Failure Config :=
  (readText content).bind Config.read

end TreeLens
