/-
Commands that make, copy, move, remove and list files and directories.
-/
import Componentry.Shell.Tools.Basic

namespace Componentry.Shell.Tools

/-- what is at a path, as it is spelled -/
def entryAt (path : Text) : Run (Except FileTree.Cause Entry) := do
  return (← get).tree.lookSpelled (gathered path)

/-- the location of a path, whether something is there or not -/
def locationOf (path : Text) : Run (Option Location) := do
  match (← get).tree.locate (.ofText (gathered path)) with
  | .ok l => return some l
  | .error _ => return none

/-- the tree with a copy of what is at a location at another one -/
def copied (t : FileTree) (source target : Location) : FileTree :=
  let below := t.entries.filter fun e => source.isPrefixOf e.1
  below.reverse.foldl (fun t e => t.set (target ++ e.1.drop source.length) e.2) t

/-- does something for each operand, the status being one if it fails for any -/
def forEach (operands : List Text) (act : Text → Run Bool) : Run Nat := do
  let mut code := 0
  for w in operands do
    if !(← act w) then code := 1
  return code

/-- a message of a command about a failure -/
def refuse (words : Text) : Run Bool := do
  warn words
  return false

/-! ## Making -/

def touch : Tool := withOptions 1 ⟨"acfhm", "drt", [("no-create", 'c'), ("date", 'd'), ("reference", 'r')], true⟩
  fun r => do
    if r.operands.isEmpty then misused 1 "missing file operand".toList
    else forEach r.operands fun path => do
      match ← placeFor path with
      | .ok l =>
        if !r.has 'c' && ((← get).tree.get? l).isNone then change (·.set l (.file []))
        return true
      | .error .isDirectory =>
        match ← entryAt path with
        | .ok _ => return true
        | .error cause => refuse ("setting times of ".toList ++ quoted path ++ ": ".toList ++ because cause)
      | .error cause => refuse ("cannot touch ".toList ++ quoted path ++ ": ".toList ++ because cause)

/-- makes a directory, and with `above` also those on the way to it, with a line for each one if `told` is set -/
def makeDir (above told : Bool) (path : Text) : Run Bool := do
  let fail (path : Text) (cause : FileTree.Cause) : Run Bool :=
    refuse ("cannot create directory ".toList ++ marked path ++ ": ".toList ++ because cause)
  let single (path : Text) : Run (Option FileTree.Cause) := do
    if path.isEmpty then return some .noEntry
    match (← get).tree.makeDir (.ofText (gathered path)) with
    | .ok after =>
      modify fun s => { s with tree := after }
      if told then print ("mkdir: created directory ".toList ++ quoted path ++ ['\n'])
      return none
    | .error t => return some t.cause
  if !above then
    match ← single path with
    | none => return true
    | some cause => fail path cause
  else
    let pieces := Text.splitAt '/' (trimmed path)
    let ways := (List.range pieces.length).map fun n => Text.join ['/'] (pieces.take (n + 1))
    for way in ways do
      if !way.isEmpty then
        match ← entryAt way with
        | .ok .dir => pure ()
        | .ok (.file _) => return ← fail way (if way = trimmed path then .occupied else .notDirectory)
        | .error _ =>
          match ← single way with
          | none => pure ()
          | some cause => return ← fail way cause
    if path.isEmpty then fail path .noEntry else return true

def mkdir : Tool := withOptions 1 ⟨"pv", "m", [("parents", 'p'), ("verbose", 'v'), ("mode", 'm')], true⟩
  fun r => do
    if r.operands.isEmpty then misused 1 "missing operand".toList
    else forEach r.operands (makeDir (r.has 'p') (r.has 'v'))

/-! ## Removing -/

/-- removes an empty directory -/
def removeDir (path : Text) : Run Bool := do
  let fail (words : Text) : Run Bool :=
    refuse ("failed to remove ".toList ++ quoted path ++ ": ".toList ++ words)
  match ← entryAt path with
  | .error cause => fail (because cause)
  | .ok (.file _) => fail (because .notDirectory)
  | .ok .dir =>
    match ← locationOf path with
    | none => fail (because .noEntry)
    | some l =>
      if !((← get).tree.namesIn l).isEmpty then fail "Directory not empty".toList
      else
        change (·.remove l)
        return true

def rmdir : Tool := withOptions 1 ⟨"pv", "", [("parents", 'p'), ("verbose", 'v')], true⟩ fun r => do
  if r.operands.isEmpty then misused 1 "missing operand".toList
  else forEach r.operands fun path => do
    let pieces := Text.splitAt '/' (trimmed path)
    let ways := if r.has 'p' then
        (List.range pieces.length).reverse.map fun n => Text.join ['/'] (pieces.take (n + 1))
      else [path]
    for way in ways do
      if !(← removeDir way) then return false
    return true

def rm : Tool := withOptions 1
  ⟨"dfiIrRv", "", [("force", 'f'), ("recursive", 'r'), ("dir", 'd'), ("verbose", 'v')], true⟩ fun r => do
    let recursive := r.has 'r' || r.has 'R'
    if r.operands.isEmpty && !r.has 'f' then misused 1 "missing operand".toList
    else forEach r.operands fun path => do
      let fail (words : Text) : Run Bool :=
        refuse ("cannot remove ".toList ++ quoted path ++ ": ".toList ++ words)
      let told (words : String) : Run Unit := do
        if r.has 'v' then print (words.toList ++ quoted path ++ ['\n'])
      let name := baseName path
      if recursive && (name = ['.'] || name = ['.', '.']) then
        refuse ("refusing to remove '.' or '..' directory: skipping ".toList ++ quoted path)
      else if recursive && name = ['/'] then
        let _ ← refuse "it is dangerous to operate recursively on '/'".toList
        refuse "use --no-preserve-root to override this failsafe".toList
      else
        match ← entryAt path, ← locationOf path with
        | .ok (.file _), some l =>
          change (·.remove l)
          told "removed "
          return true
        | .ok .dir, some l =>
          if recursive then
            change (·.removeBelow l)
            told "removed directory "
            return true
          else if r.has 'd' then
            if !((← get).tree.namesIn l).isEmpty then fail "Directory not empty".toList
            else
              change (·.remove l)
              told "removed directory "
              return true
          else fail (because .isDirectory)
        | .error .noEntry, _ | .error .notDirectory, _ =>
          if r.has 'f' then return true
          else
            match ← entryAt path with
            | .error cause => fail (because cause)
            | .ok _ => return true
        | .error cause, _ => fail (because cause)
        | .ok _, none => fail (because .noEntry)

/-! ## Copying and moving -/

/-- the sources of a copy or a move, each with the path it goes to; or none, after a message -/
def targets (r : Request) : Run (Option (List (Text × Text))) := do
  let into (dir : Text) (sources : List Text) : List (Text × Text) :=
    sources.map fun s => (s, inside dir (baseName s))
  match r.value? 't', r.operands with
  | some dir, sources => return some (into dir sources)
  | none, [] =>
    let _ ← misused 1 "missing file operand".toList
    return none
  | none, [only] =>
    let _ ← misused 1 ("missing destination file operand after ".toList ++ quoted only)
    return none
  | none, operands =>
    let target := operands.getLastD []
    let sources := operands.dropLast
    match ← entryAt target with
    | .ok .dir => if r.has 'T' then return some (sources.map fun s => (s, target)) else return some (into target sources)
    | found =>
      match sources with
      | [source] => return some [(source, target)]
      | _ =>
        let cause := match found with | .error cause => cause | .ok _ => .notDirectory
        warn ("target ".toList ++ quoted target ++ ": ".toList ++ because cause)
        return none

/-- copies one source to a path -/
def copyTo (r : Request) (source target : Text) : Run Bool := do
  let recursive := r.has 'r' || r.has 'R' || r.has 'a'
  let tell : Run Unit := do
    if r.has 'v' then print (quoted source ++ " -> ".toList ++ quoted target ++ ['\n'])
  match ← entryAt source, ← locationOf source with
  | .error cause, _ => refuse ("cannot stat ".toList ++ quoted source ++ ": ".toList ++ because cause)
  | .ok _, none => refuse ("cannot stat ".toList ++ quoted source ++ ": ".toList ++ because .noEntry)
  | .ok entry, some l =>
    if entry = .dir && !recursive then refuse ("-r not specified; omitting directory ".toList ++ quoted source)
    else
      match ← entryAt target with
      | .error .notDirectory =>
        refuse ("cannot stat ".toList ++ quoted target ++ ": ".toList ++ because .notDirectory)
      | found =>
        let there := match found with | .ok e => some e | .error _ => none
        match entry, there with
        | .dir, some (.file _) =>
          refuse ("cannot overwrite non-directory ".toList ++ quoted target ++ " with directory ".toList ++
            quoted source)
        | .file _, some .dir =>
          refuse ("cannot overwrite directory ".toList ++ quoted target ++ " with non-directory".toList)
        | .dir, _ =>
          match ← locationOf target with
          | none =>
            refuse ("cannot create directory ".toList ++ quoted target ++ ": ".toList ++ because .noEntry)
          | some m =>
            let tree := (← get).tree
            if l.isPrefixOf m then
              change fun t => copied t l m
              refuse ("cannot copy a directory, ".toList ++ quoted source ++ ", into itself, ".toList ++
                quoted target)
            else if tree.get? m.dropLast ≠ some .dir then
              refuse ("cannot create directory ".toList ++ quoted target ++ ": ".toList ++ because .noEntry)
            else
              change fun t => copied t l m
              tell
              return true
        | .file content, there =>
          let m? ← locationOf target
          if there.isSome && m? = some l then
            refuse (quoted source ++ " and ".toList ++ quoted target ++ " are the same file".toList)
          else if there.isSome && r.has 'n' then return true
          else
            match ← placeFor target with
            | .error cause =>
              let cause := if cause = .isDirectory then .notDirectory else cause
              refuse ("cannot create regular file ".toList ++ quoted target ++ ": ".toList ++ because cause)
            | .ok m =>
              change (·.set m (.file content))
              tell
              return true

/-- does something for each source with the path it goes to -/
def forTargets (r : Request) (act : Text → Text → Run Bool) : Run Nat := do
  match ← targets r with
  | none => return 1
  | some pairs =>
    let mut code := 0
    for (source, target) in pairs do
      if !(← act source target) then code := 1
    return code

def cp : Tool := withOptions 1
  ⟨"abdfHilLnpPrRsTuvx", "St", [("recursive", 'r'), ("force", 'f'), ("verbose", 'v'), ("no-clobber", 'n'),
    ("archive", 'a'), ("target-directory", 't'), ("no-target-directory", 'T'), ("preserve", 'p')], true⟩
  fun r => forTargets r (copyTo r)

/-- moves one source to a path -/
def moveTo (r : Request) (source target : Text) : Run Bool := do
  match ← entryAt source, ← locationOf source with
  | .error cause, _ => refuse ("cannot stat ".toList ++ quoted source ++ ": ".toList ++ because cause)
  | .ok _, none => refuse ("cannot stat ".toList ++ quoted source ++ ": ".toList ++ because .noEntry)
  | .ok entry, some l =>
    match ← entryAt target with
    | .error .notDirectory =>
      refuse ("cannot stat ".toList ++ quoted target ++ ": ".toList ++ because .notDirectory)
    | found =>
      let there := match found with | .ok e => some e | .error _ => none
      let m? ← locationOf target
      let cannot (cause : FileTree.Cause) : Run Bool :=
        refuse ("cannot move ".toList ++ quoted source ++ " to ".toList ++ quoted target ++ ": ".toList ++
          because cause)
      match m? with
      | none => cannot .noEntry
      | some m =>
        let tree := (← get).tree
        if entry = .dir && l.isPrefixOf m then
          refuse ("cannot move ".toList ++ quoted source ++ " to a subdirectory of itself, ".toList ++
            quoted target)
        else if l = m then
          refuse (quoted source ++ " and ".toList ++ quoted target ++ " are the same file".toList)
        else if there.isSome && r.has 'n' then return true
        else
          match entry, there with
          | .dir, some (.file _) =>
            refuse ("cannot overwrite non-directory ".toList ++ quoted target ++ " with directory ".toList ++
              quoted source)
          | .file _, some .dir =>
            refuse ("cannot overwrite directory ".toList ++ quoted target ++ " with non-directory".toList)
          | _, _ =>
            if tree.get? m.dropLast ≠ some .dir then cannot .noEntry
            else if entry ≠ .dir && there.isNone && FileTree.asksForDir target then cannot .notDirectory
            else if entry = .dir && !(tree.namesIn m).isEmpty then
              refuse ("cannot overwrite ".toList ++ quoted target ++ ": Directory not empty".toList)
            else
              change fun t => copied (t.removeBelow m) l m |>.removeBelow l
              if r.has 'v' then print ("renamed ".toList ++ quoted source ++ " -> ".toList ++ quoted target ++ ['\n'])
              return true

def mv : Tool := withOptions 1
  ⟨"bfinTuvZ", "St", [("force", 'f'), ("verbose", 'v'), ("no-clobber", 'n'), ("target-directory", 't'),
    ("no-target-directory", 'T')], true⟩
  fun r => forTargets r (moveTo r)

/-! ## Listing -/

/-- the names of a directory that a listing shows -/
def shownNames (r : Request) (l : Location) : Run (List Text) := do
  let tree := (← get).tree
  let names := Text.sorted ((tree.namesIn l).map spread)
  let hidden := r.has 'a' || r.has 'A'
  let names := names.filter fun n => hidden || n.head? ≠ some '.'
  let names := if r.has 'a' then ['.'] :: ['.', '.'] :: names else names
  let slash (n : Text) : Text :=
    if (r.has 'F' || r.has 'p') && (n = ['.'] || n = ['.', '.'] || tree.get? (l ++ [gathered n]) = some .dir) then ['/']
    else []
  let names := names.map fun n => n ++ slash n
  return if r.has 'r' then names.reverse else names

/-- the listings of directories, those below them after each if asked for; the fuel bounds how deep they lie -/
def listings (r : Request) : Nat → List (Text × Location) → Run (List (Text × List Text))
  | 0, _ => return []
  | fuel + 1, dirs => do
    let mut found := []
    for (path, l) in dirs do
      found := found ++ [(path, ← shownNames r l)]
      if r.has 'R' then
        let tree := (← get).tree
        let names := Text.sorted (((tree.namesIn l).filter fun n => tree.get? (l ++ [n]) = some .dir).map spread)
        let names := names.filter fun n => r.has 'a' || r.has 'A' || n.head? ≠ some '.'
        found := found ++ (← listings r fuel (names.map fun n => (inside path n, l ++ [gathered n])))
    return found

def ls : Tool := withOptions 2
  ⟨"1aACdFfgGhiklmnopqrRsStTuUvx", "Iw", [("all", 'a'), ("almost-all", 'A'), ("recursive", 'R'), ("reverse", 'r'),
    ("directory", 'd')], true⟩
  fun r => do
    let mut code := 0
    let mut files : List Text := []
    let mut dirs : List (Text × Location) := []
    for path in (if r.operands.isEmpty then [['.']] else Text.sorted r.operands) do
      match ← entryAt path, ← locationOf path with
      | .ok .dir, some l => if r.has 'd' then files := files ++ [path] else dirs := dirs ++ [(path, l)]
      | .ok _, _ => files := files ++ [path]
      | .error cause, _ =>
        warn ("cannot access ".toList ++ quoted path ++ ": ".toList ++ because cause)
        code := 2
    let order (ps : List Text) : List Text := if r.has 'r' then ps.reverse else ps
    print (ofLines (order files))
    let shown ← listings r 64 dirs
    let titled := r.operands.length > 1 || r.has 'R'
    let mut first := files.isEmpty
    for (path, names) in shown do
      if titled then print ((if first then [] else ['\n']) ++ path ++ ":\n".toList)
      print (ofLines names)
      first := false
    return code

end Componentry.Shell.Tools
