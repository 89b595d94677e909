import ManifestChain.Value.Basic

/-!
# Equality of values

Equality is that of contents. Numbers are equal across their kinds, `1`, `1.0` and true; a list is
no tuple; mappings and sets disregard order, and a mapping equals another one whether or not either
can be written to; records are equal if they are of one kind with equal fields. An object nothing is
known of equals no other one. Hashable values are those without a writable part: equality takes them
to hashable values, and only they can be keys.
-/

namespace ManifestChain

namespace Value

def equalsInt (n : Int) : Value → Bool
  | bool b => (if b then 1 else 0) == n
  | int m => m == n
  | float x => x.equalInt n
  | _ => false

def equalsFloat (x : Binary64) : Value → Bool
  | bool b => x.equalInt (if b then 1 else 0)
  | int n => x.equalInt n
  | float y => x.equal y
  | _ => false

mutual

def equal : Value → Value → Bool
  | null, null => true
  | bool b, v => v.equalsInt (if b then 1 else 0)
  | int n, v => v.equalsInt n
  | float x, v => v.equalsFloat x
  | text s, text t => s == t
  | bytes a, bytes b => a == b
  | list _ xs, list _ ys => equalItems xs ys
  | tuple xs, tuple ys => equalItems xs ys
  | set _ xs, set _ ys => xs.length == ys.length && subset xs ys
  | map _ es, map _ fs => es.length == fs.length && subEntries es fs
  | map _ es, view fs => es.length == fs.length && subEntries es fs
  | view es, map _ fs => es.length == fs.length && subEntries es fs
  | view es, view fs => es.length == fs.length && subEntries es fs
  | date _ d, date _ e => d == e
  | timestamp _ t, timestamp _ u => t.equal u
  | templateRecord n ls p, templateRecord m ks q =>
    n.equal m && ls.length == ks.length && subEntries ls ks && p.equal q
  | application n ls ts, application m ks us =>
    n.equal m && ls.length == ks.length && subEntries ls ks && equalItems ts us
  | deploymentChild m cs, deploymentChild n ds => m.equal n && cs.equal ds
  | serviceChild m, serviceChild n => m.equal n
  | otherChild v r, otherChild w s => v.equal w && r.equal s
  | translator t, translator u => t == u
  | _, _ => false
termination_by structural x => x

/-- Whether two lists have equal items in one order. -/
def equalItems : List Value → List Value → Bool
  | [], [] => true
  | x :: xs, y :: ys => x.equal y && equalItems xs ys
  | _, _ => false
termination_by structural x => x

/-- Whether every item of the first list equals one of the second. -/
def subset : List Value → List Value → Bool
  | [], _ => true
  | x :: xs, ys => ys.any (fun y => x.equal y) && subset xs ys
termination_by structural x => x

/-- Whether every entry of the first mapping is one of the second. -/
def subEntries : List (Value × Value) → List (Value × Value) → Bool
  | [], _ => true
  | (k, v) :: es, fs => fs.any (fun f => k.equal f.1 && v.equal f.2) && subEntries es fs
termination_by structural x => x

end

mutual

/-- Whether a value can be a key or an item of a set: none of its parts can be written to. Of a
record, the parts that its hash leaves out do not count. -/
def isHashable : Value → Bool
  | list _ _ => false
  | set _ _ => false
  | map _ _ => false
  | view _ => false
  | tuple items => allHashable items
  | templateRecord name _ payload => name.isHashable && payload.isHashable
  | application name _ templates => name.isHashable && allHashable templates
  | otherChild _ reason => reason.isHashable
  | _ => true

def allHashable : List Value → Bool
  | [] => true
  | x :: xs => x.isHashable && allHashable xs

end

mutual

/-- What the hash of a value is a function of: the hash of a record is that of the tuple of its
hashed fields, of whatever kind the record is, and all else is hashed as it is. -/
def hashImage : Value → Value
  | deploymentChild _ _ => tuple []
  | serviceChild _ => tuple []
  | otherChild _ reason => tuple [hashImage reason]
  | templateRecord name _ payload => tuple [hashImage name, hashImage payload]
  | application name _ templates => tuple [hashImage name, tuple (hashImages templates)]
  | tuple items => tuple (hashImages items)
  | v => v

def hashImages : List Value → List Value
  | [] => []
  | x :: xs => hashImage x :: hashImages xs

end

/-- Whether two values hash alike; none if one of them cannot be hashed. -/
def hashEqual? (a b : Value) : Option Bool :=
  if a.isHashable && b.isHashable then some (a.hashImage.equal b.hashImage) else none

end Value

namespace Entries

def valueAt? : Entries → Value → Option Value
  | [], _ => none
  | (k, v) :: rest, key => if k.equal key then some v else valueAt? rest key

/-- The entries with a value put at a key. A key that is equal stays as it is, where it is. -/
def put : Entries → Value → Value → Entries
  | [], key, value => [(key, value)]
  | (k, v) :: rest, key, value =>
    if k.equal key then (k, value) :: rest else (k, v) :: put rest key value

def without (entries : Entries) (key : Value) : Entries :=
  entries.filter fun e => !e.1.equal key

/-- The entries that result from putting each pair in turn. -/
def ofPairs (pairs : List (Value × Value)) : Entries :=
  pairs.foldl (fun entries p => Entries.put entries p.1 p.2) []

end Entries

namespace Value

/-- The items, each but the first of several equal ones left out. -/
def distinct (items : List Value) : List Value :=
  items.foldl (fun kept x => if kept.any (fun k => k.equal x) then kept else kept ++ [x]) []

end Value

end ManifestChain
