import AccountService.Auth.KeyStore

/-!
# Key folders

The keys of the service lie in a folder, one key file to a key. A file is a key file when its
name ends in `.pem` and something stands before that; this is the name of the key. Everything
else in the folder is passed over.

## Main definitions

* `KeyFolder.Entry` — a file or a folder, by name
* `KeyFolder.kidOf?` — the name of the key that a key file holds
* `KeyFolder.load` — the store of all keys in a folder
-/

namespace AccountService.KeyFolder

open Auth

/-- What stands in a folder under a name. -/
inductive Item where
  | file (contents : Octets)
  | folder
  deriving DecidableEq, Repr

/-- An item with its name. -/
structure Entry where
  name : String
  item : Item
  deriving DecidableEq, Repr

/-- A file name cut at its last dot. A name that begins with its only dot has no extension. -/
def cutExtension (name : List Char) : List Char × Option (List Char) :=
  let extension := (name.reverse.takeWhile (· != '.')).reverse
  let front := name.take (name.length - extension.length)
  match front.reverse with
  | [] => (name, none)
  | _ :: stem =>
    if stem.isEmpty || name = "..".toList then (name, none)
    else (stem.reverse, some extension)

/-- The name of the key that a file of this name holds, if it is a key file. -/
def kidOf? (name : String) : Option String :=
  match cutExtension name.toList with
  | (stem, some extension) =>
    if extension = "pem".toList then some (String.ofList stem) else none
  | (_, none) => none

/-- A key file: the name of its key, its own name and what it holds. -/
structure KeyFile where
  kid : String
  name : String
  contents : Octets
  deriving DecidableEq, Repr

/-- The key file that an entry is. -/
def Entry.keyFile? (e : Entry) : Option KeyFile :=
  match e.item with
  | .folder => none
  | .file contents => (kidOf? e.name).map fun kid => ⟨kid, e.name, contents⟩

/-- The path of a file in a folder. -/
def pathIn (folder name : String) : String :=
  if folder.toList.getLast? = some '/' then folder ++ name else folder ++ "/" ++ name

/-- Binds the key of a key file. -/
def addFile (folder : String) (keys : KeyStore) (f : KeyFile) : Except Error KeyStore :=
  match f.contents.toText? with
  | none =>
    .error (.keyStore
      ("reading " ++ pathIn folder f.name ++ ": stream did not contain valid UTF-8"))
  | some text => keys.insertFile f.kid text

/-- Binds the keys of key files one after the other. The second part lists the files whose
keys were bound, up to the first that could not be read. -/
def addFiles (folder : String) : KeyStore → List KeyFile → Except Error KeyStore × List KeyFile
  | keys, [] => (.ok keys, [])
  | keys, f :: rest =>
    match addFile folder keys f with
    | .error e => (.error e, [])
    | .ok keys =>
      let (result, loaded) := addFiles folder keys rest
      (result, f :: loaded)

/-- The key files among the entries of a folder. -/
def keyFiles (entries : List Entry) : List KeyFile := entries.filterMap Entry.keyFile?

/-- The store of all keys in a folder, with the files they came from. -/
def loadTraced (folder : String) (entries : List Entry) : Except Error KeyStore × List KeyFile :=
  addFiles folder .empty (keyFiles entries)

/-- The store of all keys in a folder. -/
def load (folder : String) (entries : List Entry) : Except Error KeyStore :=
  (loadTraced folder entries).1

/-- The refusal of a folder that is not there. -/
def missing (folder : String) : Error :=
  .keyStore ("reading " ++ folder ++ ": No such file or directory (os error 2)")

end AccountService.KeyFolder
