import DasiModel.RucioNames
import DasiModel.Library.SegmentedPaths
import DasiModel.Library.TrimmedTexts

/-!
# The S3 protocol of the Rucio backend

The server turns LFNs into PFNs, the client PFNs into object keys. The first
direction uses the bucket and root that the constructor worked out, the second
goes through `RSEProtocol.parse_pfns`, which sees the prefix attribute as it was
configured. `parse_pfns` and `_get_path` are Rucio's and parameters here.
-/

namespace S3Protocol
open Texts RucioNames SegmentedPaths

/-- The protocol attributes that decide about paths. -/
structure Attributes where
  hostname : PyStr
  port : Option Nat
  prefixAttr : Option PyStr

inductive RSEException where
  | accessDenied (message : PyStr)
  deriving DecidableEq

structure Default where
  attributes : Attributes
  bucket : PyStr
  root : PyStr

/-- `text.strip("/")`. -/
def stripSlashes (text : PyStr) : PyStr := strip (· == slash) text

/-- `text.split("/", 1)`: the part before the first slash and the part after it, which
is empty if there is no slash. -/
def splitOnce (text : PyStr) : PyStr × PyStr :=
  (text.takeWhile (· ≠ slash), (text.dropWhile (· ≠ slash)).drop 1)

/-- `/<bucket>[/optional/root/prefix]/` without the slashes around it. -/
def configuredPath (attributes : Attributes) (minioBucket : Option PyStr) : PyStr :=
  let path := stripSlashes (attributes.prefixAttr.getD (py "/"))
  if path = [] then stripSlashes (minioBucket.getD []) else path

/-- `Default.__init__`; `minioBucket` is the environment variable `MINIO_BUCKET`. -/
def Default.init (attributes : Attributes) (minioBucket : Option PyStr) :
    Except RSEException Default :=
  let (bucket, rest) := splitOnce (configuredPath attributes minioBucket)
  if bucket = [] then
    .error (.accessDenied (py "No S3 bucket configured. " ++
      py "Set protocol prefix to /<bucket>/ or define MINIO_BUCKET."))
  else
    let root := if rest = [] then [] else rest.rdropWhile (· == slash) ++ [slash]
    .ok ⟨attributes, bucket, root⟩

structure Lfn where
  scope : PyStr
  name : PyStr
  path : Option PyStr

/-- `f"{scope}:{name}"`. -/
def Lfn.did (lfn : Lfn) : PyStr := lfn.scope ++ py ":" ++ lfn.name

/-- The relative path of an LFN. -/
def Lfn.rel (getPath : PyStr → PyStr → PyStr) (lfn : Lfn) : PyStr :=
  match lfn.path with
  | none => getPath lfn.scope lfn.name
  | some path =>
    if path = [] then getPath lfn.scope lfn.name else path.dropWhile (· == slash)

/-- `s3://{hostname}:{port}`. -/
def address (hostname : PyStr) (port : Nat) : PyStr :=
  py "s3://" ++ hostname ++ py ":" ++ py (toString port)

section Encoding
variable (protocol : Default) (getPath : PyStr → PyStr → PyStr)

/-- The PFN up to the object key. -/
def Default.bucketAddress : PyStr :=
  address protocol.attributes.hostname (protocol.attributes.port.getD 9000) ++
    slash :: (protocol.bucket ++ [slash])

def Default.pfn (lfn : Lfn) : PyStr :=
  protocol.bucketAddress ++ protocol.root ++ lfn.rel getPath

/-- `Default.lfns2pfns`, for a list: the items of the dictionary returned. -/
def Default.lfns2pfns (lfns : List Lfn) : List (PyStr × PyStr) :=
  lfns.foldl (fun pfns lfn => setEntry lfn.did (protocol.pfn getPath lfn) pfns) []

end Encoding

structure ParsedPfn where
  path : PyStr
  name : PyStr
  deriving DecidableEq

/-- `urlparse` removes tabs and line breaks everywhere. -/
def isDropped (c : CodePoint) : Bool := c.val == 0x09 || c.val == 0x0A || c.val == 0x0D

/-- The path of a URL ends at a query or a fragment. -/
def isCut (c : CodePoint) : Bool := c.val == 0x3F || c.val == 0x23

def colon : CodePoint := 0x3A

/-- The netloc of an `s3` URL. -/
def netloc (pfn : PyStr) : PyStr :=
  ((pfn.filter (fun c => !isDropped c)).drop (py "s3://").length).takeWhile
    (fun c => c ≠ slash && !isCut c)

/-- `netloc.partition(":")[0]` -/
def hostOf (netloc : PyStr) : PyStr := netloc.takeWhile (· ≠ colon)

def urlPath (rest : PyStr) : PyStr :=
  (rest.filter (fun c => !isDropped c)).takeWhile (fun c => !isCut c)

/-- What `parse_pfns` does with the path of a PFN. -/
def readPath (prefixAttr rest : PyStr) : Option ParsedPfn :=
  let opening := enclose slash (collapse slash prefixAttr)
  let path := collapse slash (urlPath rest)
  if opening.isPrefixOf path then
    let pieces := (path.drop opening.length).splitOn slash
    some ⟨enclose slash ([slash].intercalate pieces.dropLast), pieces.getLastD []⟩
  else none

/-- What Rucio's `parse_pfns` is relied on for; `none` is an exception. It reads the
attributes `port` and `prefix` in any case, and decodes PFNs with its own address if
`urlsplit` takes their netloc and the host read from it is the configured one. `urlsplit`
refuses a netloc for its brackets, or for characters that stand for separators. -/
structure ParsesPfns (takes : PyStr → Bool) (attributes : Attributes)
    (parsePfns : PyStr → Option ParsedPfn) : Prop where
  missing (pfn : PyStr) : attributes.port = none ∨ attributes.prefixAttr = none →
    parsePfns pfn = none
  own (port : Nat) (prefixAttr rest : PyStr) : attributes.port = some port →
    attributes.prefixAttr = some prefixAttr → rest.head? = some slash →
    takes (netloc (address attributes.hostname port ++ rest)) = true →
    hostOf (netloc (address attributes.hostname port ++ rest)) = attributes.hostname →
    parsePfns (address attributes.hostname port ++ rest) = readPath prefixAttr rest
  refused (port : Nat) (rest : PyStr) : attributes.port = some port →
    rest.head? = some slash →
    takes (netloc (address attributes.hostname port ++ rest)) = false ∨
      hostOf (netloc (address attributes.hostname port ++ rest)) ≠ attributes.hostname →
    parsePfns (address attributes.hostname port ++ rest) = none

section Decoding
variable (protocol : Default) (parsePfns : PyStr → Option ParsedPfn)

/-- The key of a PFN that has been parsed. -/
def Default.keyOf (parsed : ParsedPfn) : PyStr :=
  let path := stripSlashes parsed.path
  let parts := [protocol.root.rdropWhile (· == slash), path, parsed.name].filter (· ≠ [])
  [slash].intercalate parts

/-- `Default._pfn_to_key`. -/
def Default.pfnToKey (pfn : PyStr) : Option PyStr := (parsePfns pfn).map protocol.keyOf

def Default.pfn2path (pfn : PyStr) : Option PyStr := protocol.pfnToKey parsePfns pfn

end Decoding

/-- Non-empty segments of safe characters. -/
structure ArePieces (pieces : List PyStr) : Prop where
  some : pieces ≠ []
  nonempty : ∀ s ∈ pieces, s ≠ []
  safe : ∀ s ∈ pieces, ∀ c ∈ s, isSafe c = true

def IsRelativePath (rel : PyStr) : Prop :=
  ∃ pieces, ArePieces pieces ∧ rel = [slash].intercalate pieces

/-- Every PFN made for a relative path is read back as its key. -/
structure RoundTrips (protocol : Default) (getPath : PyStr → PyStr → PyStr)
    (parsePfns : PyStr → Option ParsedPfn) : Prop where
  decodes (lfns : List Lfn) : (∀ lfn ∈ lfns, IsRelativePath (lfn.rel getPath)) →
    ∀ entry ∈ protocol.lfns2pfns getPath lfns, ∃ lfn ∈ lfns, entry.1 = lfn.did ∧
      protocol.pfn2path parsePfns entry.2 = some (protocol.root ++ lfn.rel getPath) ∧
      entry.2 = protocol.bucketAddress ++ (protocol.root ++ lfn.rel getPath)
  distinct (lfn lfn' : Lfn) : IsRelativePath (lfn.rel getPath) →
    IsRelativePath (lfn'.rel getPath) → lfn.rel getPath ≠ lfn'.rel getPath →
    protocol.pfn2path parsePfns (protocol.pfn getPath lfn) ≠
      protocol.pfn2path parsePfns (protocol.pfn getPath lfn')

/-- A host name that is read back from a URL. -/
structure PlainHost (takes : PyStr → Bool) (hostname : PyStr) (port : Nat) : Prop where
  plain : ∀ c ∈ hostname, c ≠ colon ∧ c ≠ slash ∧ isDropped c = false ∧ isCut c = false
  taken : takes (hostname ++ colon :: py (toString port)) = true

/-- Both sides see the same host and the same prefix: the prefix is given and means the same in
a URL, or what stands in for it vanishes from a URL. -/
def SidesAgree (takes : PyStr → Bool) (attributes : Attributes) (minioBucket : Option PyStr) :
    Prop :=
  (∃ port, attributes.port = some port ∧ PlainHost takes attributes.hostname port) ∧
    ∃ given, attributes.prefixAttr = some given ∧
      if stripSlashes given = [] then
        ∀ c ∈ minioBucket.getD [], c = slash ∨ isDropped c = true
      else ∀ c ∈ given, isDropped c = false ∧ isCut c = false

section Hosts

theorem plain_port {port : Nat} {c : CodePoint} (inside : c ∈ py (toString port)) :
    c ≠ slash ∧ isDropped c = false ∧ isCut c = false := by
  obtain ⟨d, member, rfl⟩ := List.mem_map.mp inside
  have digit : d.isDigit = true := by
    have digits : (toString port).toList = Nat.toDigits 10 port := by
      rw [Nat.toString_eq_repr, Nat.repr, String.toList_ofList]
    rw [digits] at member
    exact Nat.isDigit_of_mem_toDigits (by decide) (by decide) member
  have range : 48 ≤ d.toNat ∧ d.toNat ≤ 57 := by
    simp only [Char.isDigit, Bool.and_eq_true, decide_eq_true_eq] at digit
    exact ⟨UInt32.le_iff_toNat_le.mp digit.1, UInt32.le_iff_toNat_le.mp digit.2⟩
  have value : (Fin.ofNat 0x110000 d.toNat).val = d.toNat := by
    rw [Fin.val_ofNat]
    omega
  simp only [isDropped, isCut, value, ne_eq, Fin.ext_iff, Bool.or_eq_false_iff,
    beq_eq_false_iff_ne]
  have other : slash.val = 0x2F := rfl
  omega

/-- The netloc of a PFN is the host and the port, if the host is plain. -/
theorem netloc_address {hostname rest : PyStr} {port : Nat}
    (plain : ∀ c ∈ hostname, c ≠ colon ∧ c ≠ slash ∧ isDropped c = false ∧ isCut c = false)
    (path : rest.head? = some slash) :
    netloc (address hostname port ++ rest) = hostname ++ colon :: py (toString port) := by
  obtain ⟨tail, rfl⟩ : ∃ tail, rest = slash :: tail := by
    cases rest with
    | nil => cases path
    | cons c tail =>
      cases path
      exact ⟨tail, rfl⟩
  have own : ∀ c ∈ hostname ++ colon :: py (toString port),
      c ≠ slash ∧ isDropped c = false ∧ isCut c = false := by
    intro c inside
    rcases List.mem_append.mp inside with host | inside
    · exact (plain c host).2
    · rcases List.mem_cons.mp inside with rfl | digit
      · exact ⟨by decide, rfl, rfl⟩
      · exact plain_port digit
  have kept : (hostname ++ colon :: py (toString port)).filter (fun c => !isDropped c) =
      hostname ++ colon :: py (toString port) := by
    rw [List.filter_eq_self]
    intro c inside
    rw [(own c inside).2.1]
    rfl
  have text : address hostname port ++ slash :: tail =
      py "s3://" ++ ((hostname ++ colon :: py (toString port)) ++ slash :: tail) := by
    rw [address, show py ":" = [colon] from rfl]
    simp
  have shown : (address hostname port ++ slash :: tail).filter (fun c => !isDropped c) =
      py "s3://" ++ ((hostname ++ colon :: py (toString port)) ++
        slash :: tail.filter (fun c => !isDropped c)) := by
    rw [text, List.filter_append, List.filter_append, kept, List.filter_cons_of_pos rfl]
    rfl
  rw [netloc, shown, List.drop_left, List.takeWhile_append_of_pos]
  · rw [List.takeWhile_cons_of_neg (by simp), List.append_nil]
  · intro c inside
    obtain ⟨other, -, uncut⟩ := own c inside
    simp [other, uncut]

theorem hostOf_plain {hostname : PyStr} (plain : ∀ c ∈ hostname, c ≠ colon) (after : PyStr) :
    hostOf (hostname ++ colon :: after) = hostname := by
  rw [hostOf, List.takeWhile_append_of_pos]
  · simp
  · intro c inside
    simpa using plain c inside

/-- A host that is read back is plain. -/
theorem plain_of_hostOf {hostname pfn : PyStr} (same : hostOf (netloc pfn) = hostname) :
    ∀ c ∈ hostname, c ≠ colon ∧ c ≠ slash ∧ isDropped c = false ∧ isCut c = false := by
  intro c inside
  rw [← same] at inside
  have other := List.mem_takeWhile_imp inside
  have shown := (List.takeWhile_prefix _).subset inside
  have kept := List.mem_takeWhile_imp shown
  have member := List.mem_of_mem_drop ((List.takeWhile_prefix _).subset shown)
  have whole := (List.mem_filter.mp member).2
  simp only [decide_eq_true_eq, Bool.and_eq_true, Bool.not_eq_true'] at other kept whole
  exact ⟨other, kept.1, whole, kept.2⟩

end Hosts

section Paths

theorem segments_stripSlashes (text : PyStr) :
    segments slash (stripSlashes text) = segments slash text := by
  rw [stripSlashes, strip, segments_rdropWhile, segments_dropWhile]

theorem stripSlashes_eq_nil_iff (text : PyStr) :
    stripSlashes text = [] ↔ segments slash text = [] := by
  constructor
  · intro none
    rw [← segments_stripSlashes, none]
    rfl
  · intro none
    have all := (segments_eq_nil_iff text).mp none
    have drop : text.dropWhile (· == slash) = [] := by
      rw [List.dropWhile_eq_nil_iff]
      intro c hc
      exact beq_iff_eq.mpr (all c hc)
    rw [stripSlashes, strip, drop]
    rfl

/-- The text does not end in a slash. -/
def Trimmed (text : PyStr) : Prop := text.getLast? ≠ some slash

theorem trimmed_stripSlashes (text : PyStr) : Trimmed (stripSlashes text) := by
  intro last
  have kept := (TrimmedTexts.trimmed_trim (· == slash) text).2 slash last
  simp at kept

theorem Trimmed.rdropWhile {text : PyStr} (trimmed : Trimmed text) :
    text.rdropWhile (· == slash) = text := by
  rw [List.rdropWhile_eq_self_iff]
  intro some same
  rw [Trimmed, List.getLast?_eq_some_getLast some] at trimmed
  exact trimmed (congrArg _ (eq_of_beq same))

theorem stripSlashes_enclosed {text : PyStr} (first : text.head? ≠ some slash)
    (trimmed : Trimmed text) : stripSlashes (enclose slash text) = text := by
  rw [enclose, if_neg first]
  cases text with
  | nil => rfl
  | cons c rest =>
    have other : (c == slash) = false := by simpa using first
    have last : (slash :: c :: rest).getLast? ≠ some slash := by
      rwa [List.getLast?_cons_cons]
    rw [if_neg last, stripSlashes, strip, List.cons_append, List.dropWhile_cons,
      if_pos (beq_self_eq_true slash), List.cons_append, List.dropWhile_cons,
      if_neg (by simp [other]), ← List.cons_append,
      List.rdropWhile_concat_pos (· == slash) _ _ (beq_self_eq_true slash), trimmed.rdropWhile]

theorem intercalate_concat {pieces : List PyStr} (some : pieces ≠ []) (last : PyStr) :
    [slash].intercalate (pieces ++ [last]) = [slash].intercalate pieces ++ slash :: last := by
  have rooted_concat := @rooted_append _ slash pieces [last]
  rw [rooted_eq_cons_intercalate some, rooted_eq_cons_intercalate (by simp)] at rooted_concat
  simpa [rooted] using rooted_concat

theorem head?_intercalate {pieces : List PyStr} (own : AreSegments slash pieces) :
    ([slash].intercalate pieces).head? ≠ some slash := by
  cases pieces with
  | nil => simp
  | cons s rest =>
    obtain ⟨⟨some, free⟩, -⟩ := List.forall_mem_cons.mp own
    intro first
    cases s with
    | nil => exact some rfl
    | cons c s =>
      have here : ([slash].intercalate ((c :: s) :: rest)).head? = .some c := by
        cases rest with
        | nil => simp
        | cons t rest => simp
      rw [here] at first
      exact free (Option.some.inj first ▸ List.mem_cons_self)

theorem trimmed_intercalate {pieces : List PyStr} (own : AreSegments slash pieces) :
    Trimmed ([slash].intercalate pieces) := by
  rcases List.eq_nil_or_concat pieces with rfl | ⟨initial, s, rfl⟩
  · simp [Trimmed]
  · rw [List.concat_eq_append] at own ⊢
    obtain ⟨some, free⟩ := own s (List.mem_append_right _ List.mem_cons_self)
    have ends : ([slash].intercalate (initial ++ [s])).getLast? = s.getLast? := by
      by_cases none : initial = []
      · simp [none]
      · rw [intercalate_concat none, List.getLast?_append, List.getLast?_cons,
          List.getLast?_eq_some_getLast some]
        rfl
    intro last
    rw [ends] at last
    exact free (List.mem_of_getLast? last)

/-- A root as the constructor makes it. -/
def IsRoot (root : PyStr) : Prop := root = [] ∨ ∃ r, r ≠ [] ∧ Trimmed r ∧ root = r ++ [slash]

/-- The key of a path that has been taken apart and is put together again. -/
theorem keyOf_pieces {protocol : Default} (isRoot : IsRoot protocol.root) {pieces : List PyStr}
    (own : AreSegments slash pieces) (some : pieces ≠ []) :
    protocol.keyOf ⟨enclose slash ([slash].intercalate pieces.dropLast), pieces.getLastD []⟩ =
      protocol.root ++ [slash].intercalate pieces := by
  rw [Default.keyOf]
  generalize protocol.root = root at isRoot ⊢
  rcases List.eq_nil_or_concat pieces with rfl | ⟨initial, s, rfl⟩
  · exact absurd rfl some
  rw [List.concat_eq_append] at own ⊢
  have front : AreSegments slash initial := fun t ht => own t (List.mem_append_left _ ht)
  have last := (own s (List.mem_append_right _ List.mem_cons_self)).1
  dsimp only
  rw [List.dropLast_concat, List.getLastD_concat,
    stripSlashes_enclosed (head?_intercalate front) (trimmed_intercalate front)]
  have directory : initial ≠ [] → [slash].intercalate initial ≠ [] := by
    intro more none
    have cut := splitOn_intercalate front more
    rw [none, List.splitOn_nil] at cut
    exact (front [] (cut ▸ List.mem_cons_self)).1 rfl
  rcases isRoot with rfl | ⟨r, more, trimmed, rfl⟩
  · by_cases none : initial = []
    · simp [none, last]
    · rw [intercalate_concat none]
      simp [directory none, last]
  · rw [List.rdropWhile_concat_pos (· == slash) _ _ (beq_self_eq_true slash), trimmed.rdropWhile]
    by_cases none : initial = []
    · simp [none, last, more]
    · rw [intercalate_concat none]
      simp [directory none, last, more]

end Paths

section Configurations
variable {attributes : Attributes} {minioBucket : Option PyStr} {protocol : Default}

/-- What an accepted configuration looks like. -/
theorem init_spec (accepted : Default.init attributes minioBucket = .ok protocol) :
    protocol.attributes = attributes ∧ IsRoot protocol.root ∧
      protocol.bucket ++ slash :: protocol.root =
        configuredPath attributes minioBucket ++ [slash] := by
  have trimmed : Trimmed (configuredPath attributes minioBucket) := by
    simp only [configuredPath]
    split
    · exact trimmed_stripSlashes _
    · exact trimmed_stripSlashes _
  rw [Default.init] at accepted
  generalize configuredPath attributes minioBucket = path at trimmed accepted ⊢
  obtain ⟨bucket, rest, halves⟩ : ∃ bucket rest, splitOnce path = (bucket, rest) := ⟨_, _, rfl⟩
  rw [halves] at accepted
  dsimp only at accepted
  split at accepted
  · cases accepted
  · cases accepted
    obtain ⟨rfl, rfl⟩ := Prod.mk.inj halves
    refine ⟨rfl, ?_⟩
    have parts := @List.takeWhile_append_dropWhile _ (fun c => decide (c ≠ slash)) path
    have head := List.head?_dropWhile_not (fun c => decide (c ≠ slash)) path
    cases rest : path.dropWhile (fun c => decide (c ≠ slash)) with
    | nil =>
      rw [rest, List.append_nil] at parts
      exact ⟨Or.inl rfl, by simpa using parts⟩
    | cons c tail =>
      rw [rest] at parts head
      obtain rfl : c = slash := by simpa using head
      have some : tail ≠ [] := by
        rintro rfl
        apply trimmed
        rw [← parts, List.getLast?_concat]
      have last : Trimmed tail := by
        rw [Trimmed, ← parts, List.getLast?_append, List.getLast?_cons,
          List.getLast?_eq_some_getLast some] at trimmed
        rw [Trimmed, List.getLast?_eq_some_getLast some]
        exact trimmed
      rw [List.drop_succ_cons, List.drop_zero, if_neg some, last.rdropWhile]
      refine ⟨Or.inr ⟨tail, some, last, rfl⟩, ?_⟩
      rw [← List.cons_append, ← List.append_assoc, parts]

theorem ArePieces.areSegments {pieces : List PyStr} (legal : ArePieces pieces) :
    AreSegments slash pieces := by
  intro s hs
  refine ⟨legal.nonempty s hs, ?_⟩
  intro inside
  cases legal.safe s hs slash inside

theorem ArePieces.plain {pieces : List PyStr} (legal : ArePieces pieces) {c : CodePoint}
    (inside : c ∈ rooted slash pieces) : isDropped c = false ∧ isCut c = false := by
  obtain ⟨s, hs, hc⟩ := List.mem_flatMap.mp inside
  rcases List.mem_cons.mp hc with rfl | hc
  · exact ⟨rfl, rfl⟩
  · have safe := legal.safe s hs c hc
    simp only [isSafe, isDropped, isCut, Bool.or_eq_true, Bool.and_eq_true, decide_eq_true_eq,
      beq_iff_eq, Bool.or_eq_false_iff, beq_eq_false_iff_ne] at safe ⊢
    omega

/-- The path of a PFN keeps what a URL shows of the configured path. -/
theorem urlPath_before {pieces : List PyStr} (legal : ArePieces pieces) {path : PyStr}
    (uncut : ∀ c ∈ path, isCut c = false) : urlPath (slash :: (path ++ rooted slash pieces)) =
      slash :: (path.filter (fun c => !isDropped c) ++ rooted slash pieces) := by
  have kept : (rooted slash pieces).filter (fun c => !isDropped c) = rooted slash pieces := by
    rw [List.filter_eq_self]
    intro c hc
    rw [(legal.plain hc).1]
    rfl
  have shown : (slash :: (path ++ rooted slash pieces)).filter (fun c => !isDropped c) =
      slash :: (path.filter (fun c => !isDropped c) ++ rooted slash pieces) := by
    rw [List.filter_cons_of_pos rfl, List.filter_append, kept]
  rw [urlPath, shown, List.takeWhile_eq_self_iff]
  intro c hc
  rcases List.mem_cons.mp hc with rfl | hc
  · rfl
  · rcases List.mem_append.mp hc with hc | hc
    · rw [uncut c (List.mem_of_mem_filter hc)]
      rfl
    · rw [(legal.plain hc).2]
      rfl

/-- Behind a query or a fragment nothing is seen of the relative path. -/
theorem urlPath_cut {path : PyStr} {c : CodePoint} (inside : c ∈ path) (cut : isCut c = true)
    (rest : PyStr) : urlPath (slash :: (path ++ rest)) = urlPath (slash :: path) := by
  have shown : c ∈ (slash :: path).filter (fun c => !isDropped c) := by
    refine List.mem_filter.mpr ⟨List.mem_cons_of_mem slash inside, ?_⟩
    simp only [isCut, isDropped, Bool.or_eq_true, beq_iff_eq, Bool.not_eq_true',
      Bool.or_eq_false_iff, beq_eq_false_iff_ne] at cut ⊢
    omega
  rw [urlPath, urlPath, ← List.cons_append, List.filter_append, List.takeWhile_append]
  have short : ((((slash :: path).filter (fun c => !isDropped c)).takeWhile
      (fun c => !isCut c)).length ≠ ((slash :: path).filter (fun c => !isDropped c)).length) := by
    intro same
    have all := (List.takeWhile_prefix _).eq_of_length same
    have uncut := List.takeWhile_eq_self_iff.mp all c shown
    rw [cut] at uncut
    cases uncut
  rw [if_neg short]

theorem readPath_of_pieces {given rest : PyStr} {pieces : List PyStr}
    (own : AreSegments slash pieces) (some : pieces ≠ [])
    (seen : collapse slash (urlPath rest) = rooted slash (segments slash given ++ pieces)) :
    readPath given rest = .some
      ⟨enclose slash ([slash].intercalate pieces.dropLast), pieces.getLastD []⟩ := by
  have split : rooted slash (segments slash given ++ pieces) =
      enclose slash (collapse slash given) ++ [slash].intercalate pieces := by
    rw [enclose_collapse, rooted_append, rooted_eq_cons_intercalate some, List.append_assoc,
      List.singleton_append]
  rw [readPath, seen, split, if_pos (List.isPrefixOf_iff_prefix.mpr (List.prefix_append _ _)),
    List.drop_left, splitOn_intercalate own some]

/-- An unreadable character of the prefix is in no path. -/
theorem readPath_unreadable {given rest : PyStr} {c : CodePoint} (inside : c ∈ given)
    (unreadable : isDropped c = true ∨ isCut c = true) : readPath given rest = none := by
  rw [readPath, if_neg]
  intro opens
  have other : c ≠ slash := by
    rintro rfl
    rcases unreadable with h | h
    · cases h
    · cases h
  have present : c ∈ collapse slash (urlPath rest) := by
    refine (List.isPrefixOf_iff_prefix.mp opens).subset ?_
    rw [enclose_collapse]
    exact List.mem_append_left _ (mem_rooted_segments inside other)
  have seen := mem_of_mem_collapse present
  rcases unreadable with dropped | cut
  · have kept := (List.mem_filter.mp ((List.takeWhile_prefix _).subset seen)).2
    rw [dropped] at kept
    cases kept
  · have uncut := List.mem_takeWhile_imp seen
    rw [cut] at uncut
    cases uncut

variable {getPath : PyStr → PyStr → PyStr} {parsePfns : PyStr → Option ParsedPfn}
  {takes : PyStr → Bool}

theorem pfn_eq (lfn : Lfn) :
    protocol.pfn getPath lfn = protocol.bucketAddress ++ (protocol.root ++ lfn.rel getPath) := by
  rw [Default.pfn, List.append_assoc]

/-- A PFN is the address, the configured path and the relative path. -/
theorem pfn_text (accepted : Default.init attributes minioBucket = .ok protocol) {port : Nat}
    (hport : attributes.port = some port) {lfn : Lfn} {pieces : List PyStr}
    (legal : ArePieces pieces) (rel : lfn.rel getPath = [slash].intercalate pieces) :
    protocol.pfn getPath lfn = address attributes.hostname port ++
      slash :: (configuredPath attributes minioBucket ++ rooted slash pieces) := by
  obtain ⟨own, -, whole⟩ := init_spec accepted
  have middle : protocol.bucket ++ slash :: (protocol.root ++ [slash].intercalate pieces) =
      configuredPath attributes minioBucket ++ rooted slash pieces := by
    rw [rooted_eq_cons_intercalate legal.some, ← List.cons_append, ← List.append_assoc, whole,
      List.append_assoc, List.singleton_append]
  rw [pfn_eq, Default.bucketAddress, own, hport, rel, ← middle]
  simp

/-- Decoding a PFN with a plain host is reading the configured path and the relative path
with the prefix attribute. -/
theorem pfn2path_pfn (accepted : Default.init attributes minioBucket = .ok protocol)
    (parses : ParsesPfns takes attributes parsePfns) {port : Nat}
    (hport : attributes.port = some port) (host : PlainHost takes attributes.hostname port)
    {given : PyStr} (hgiven : attributes.prefixAttr = some given) {lfn : Lfn}
    {pieces : List PyStr} (legal : ArePieces pieces)
    (rel : lfn.rel getPath = [slash].intercalate pieces) :
    protocol.pfn2path parsePfns (protocol.pfn getPath lfn) =
      (readPath given (slash :: (configuredPath attributes minioBucket ++
        rooted slash pieces))).map protocol.keyOf := by
  rw [Default.pfn2path, Default.pfnToKey, pfn_text accepted hport legal rel,
    parses.own port given _ hport hgiven rfl]
  · rw [netloc_address host.plain rfl]
    exact host.taken
  · rw [netloc_address host.plain rfl]
    exact hostOf_plain (fun c inside => (host.plain c inside).1) _

/-- A host that PFNs are read back with is plain. -/
theorem plainHost_of_pfn2path (accepted : Default.init attributes minioBucket = .ok protocol)
    (parses : ParsesPfns takes attributes parsePfns) {port : Nat}
    (hport : attributes.port = some port) {lfn : Lfn} {pieces : List PyStr}
    (legal : ArePieces pieces) (rel : lfn.rel getPath = [slash].intercalate pieces)
    (read : protocol.pfn2path parsePfns (protocol.pfn getPath lfn) ≠ none) :
    PlainHost takes attributes.hostname port := by
  rw [Default.pfn2path, Default.pfnToKey, pfn_text accepted hport legal rel] at read
  generalize hrest : slash :: (configuredPath attributes minioBucket ++ rooted slash pieces) =
    rest at read
  have first : rest.head? = some slash := by
    rw [← hrest]
    rfl
  by_cases refused : takes (netloc (address attributes.hostname port ++ rest)) = false ∨
      hostOf (netloc (address attributes.hostname port ++ rest)) ≠ attributes.hostname
  · rw [parses.refused port rest hport first refused] at read
    exact absurd rfl read
  · obtain ⟨taken, same⟩ := not_or.mp refused
    have plain := plain_of_hostOf (not_not.mp same)
    rw [Bool.not_eq_false, netloc_address plain first] at taken
    exact ⟨plain, taken⟩

theorem configuredPath_eq {given : PyStr} (hgiven : attributes.prefixAttr = some given) :
    configuredPath attributes minioBucket =
      if stripSlashes given = [] then stripSlashes (minioBucket.getD []) else stripSlashes given := by
  simp only [configuredPath, hgiven, Option.getD_some]

theorem configuredPath_of_sidesAgree {given : PyStr}
    (hgiven : attributes.prefixAttr = some given) (agree : if stripSlashes given = [] then
      ∀ c ∈ minioBucket.getD [], c = slash ∨ isDropped c = true
      else ∀ c ∈ given, isDropped c = false ∧ isCut c = false) :
    (∀ c ∈ configuredPath attributes minioBucket, isCut c = false) ∧
      segments slash ((configuredPath attributes minioBucket).filter (fun c => !isDropped c)) =
        segments slash given := by
  rw [configuredPath_eq hgiven]
  by_cases fallback : stripSlashes given = []
  · rw [if_pos fallback] at agree ⊢
    refine ⟨?_, ?_⟩
    · intro c hc
      rcases agree c (mem_of_mem_strip hc) with rfl | dropped
      · rfl
      · simp only [isDropped, isCut, Bool.or_eq_true, beq_iff_eq, Bool.or_eq_false_iff,
          beq_eq_false_iff_ne] at dropped ⊢
        omega
    · rw [(stripSlashes_eq_nil_iff given).mp fallback, segments_eq_nil_iff]
      intro c hc
      obtain ⟨inside, kept⟩ := List.mem_filter.mp hc
      rcases agree c (mem_of_mem_strip inside) with same | dropped
      · exact same
      · rw [dropped] at kept
        cases kept
  · rw [if_neg fallback] at agree ⊢
    have kept : (stripSlashes given).filter (fun c => !isDropped c) = stripSlashes given := by
      rw [List.filter_eq_self]
      intro c hc
      rw [(agree c (mem_of_mem_strip hc)).1]
      rfl
    refine ⟨fun c hc => (agree c (mem_of_mem_strip hc)).2, ?_⟩
    rw [kept, segments_stripSlashes]

/-- What the configured path shows in a URL beyond the prefix becomes part of the key. -/
theorem pfn2path_of_segments (accepted : Default.init attributes minioBucket = .ok protocol)
    (parses : ParsesPfns takes attributes parsePfns) {port : Nat}
    (hport : attributes.port = some port) (host : PlainHost takes attributes.hostname port)
    {given : PyStr} (hgiven : attributes.prefixAttr = some given)
    (uncut : ∀ c ∈ configuredPath attributes minioBucket, isCut c = false)
    {beyond : List PyStr} (own : AreSegments slash beyond)
    (shown : segments slash ((configuredPath attributes minioBucket).filter
      (fun c => !isDropped c)) = segments slash given ++ beyond) {lfn : Lfn}
    {pieces : List PyStr} (legal : ArePieces pieces)
    (rel : lfn.rel getPath = [slash].intercalate pieces) :
    protocol.pfn2path parsePfns (protocol.pfn getPath lfn) =
      some (protocol.root ++ [slash].intercalate (beyond ++ pieces)) := by
  have all := own.append legal.areSegments
  have some := List.append_ne_nil_of_right_ne_nil beyond legal.some
  have seen : collapse slash (urlPath (slash :: (configuredPath attributes minioBucket ++
      rooted slash pieces))) = rooted slash (segments slash given ++ (beyond ++ pieces)) := by
    rw [urlPath_before legal uncut, collapse_before legal.areSegments legal.some, shown,
      List.append_assoc]
  rw [pfn2path_pfn accepted parses hport host hgiven legal rel, readPath_of_pieces all some seen,
    Option.map_some, keyOf_pieces (init_spec accepted).2.1 all some]

/-- Where the sides agree, every relative path is read back. -/
theorem pfn2path_of_sidesAgree (accepted : Default.init attributes minioBucket = .ok protocol)
    (parses : ParsesPfns takes attributes parsePfns)
    (agree : SidesAgree takes attributes minioBucket) {lfn : Lfn}
    (legal : IsRelativePath (lfn.rel getPath)) :
    protocol.pfn2path parsePfns (protocol.pfn getPath lfn) =
      some (protocol.root ++ lfn.rel getPath) := by
  obtain ⟨⟨port, hport, host⟩, given, hgiven, agree⟩ := agree
  obtain ⟨pieces, legal, rel⟩ := legal
  obtain ⟨uncut, same⟩ := configuredPath_of_sidesAgree hgiven agree
  have nothing : AreSegments slash ([] : List PyStr) := by
    rintro s ⟨⟩
  rw [← List.append_nil (segments slash given)] at same
  have read := pfn2path_of_segments accepted parses hport host hgiven uncut nothing same legal rel
  rwa [List.nil_append, ← rel] at read

/-- A query or fragment in the configured path would give all names one key. -/
theorem uncut_of_pfn2path (accepted : Default.init attributes minioBucket = .ok protocol)
    (parses : ParsesPfns takes attributes parsePfns) {port : Nat}
    (hport : attributes.port = some port) (host : PlainHost takes attributes.hostname port)
    {given : PyStr} (hgiven : attributes.prefixAttr = some given) {lfn lfn' : Lfn}
    {pieces pieces' : List PyStr} (legal : ArePieces pieces) (legal' : ArePieces pieces')
    (rel : lfn.rel getPath = [slash].intercalate pieces)
    (rel' : lfn'.rel getPath = [slash].intercalate pieces')
    (apart : protocol.pfn2path parsePfns (protocol.pfn getPath lfn) ≠
      protocol.pfn2path parsePfns (protocol.pfn getPath lfn')) :
    ∀ c ∈ configuredPath attributes minioBucket, isCut c = false := by
  intro c hc
  by_contra cut
  rw [Bool.not_eq_false] at cut
  apply apart
  rw [pfn2path_pfn accepted parses hport host hgiven legal rel,
    pfn2path_pfn accepted parses hport host hgiven legal' rel', readPath, urlPath_cut hc cut,
    readPath, urlPath_cut hc cut]

/-- What stands in for an empty prefix vanishes from the URL of a name that is read back. -/
theorem vanishes_of_pfn2path (accepted : Default.init attributes minioBucket = .ok protocol)
    (parses : ParsesPfns takes attributes parsePfns) {port : Nat}
    (hport : attributes.port = some port) (host : PlainHost takes attributes.hostname port)
    {given : PyStr} (hgiven : attributes.prefixAttr = some given)
    (fallback : stripSlashes given = [])
    (uncut : ∀ c ∈ configuredPath attributes minioBucket, isCut c = false) {lfn : Lfn}
    {pieces : List PyStr} (legal : ArePieces pieces)
    (rel : lfn.rel getPath = [slash].intercalate pieces)
    (read : protocol.pfn2path parsePfns (protocol.pfn getPath lfn) =
      some (protocol.root ++ lfn.rel getPath)) :
    ∀ c ∈ minioBucket.getD [], c = slash ∨ isDropped c = true := by
  -- the prefix attribute gives nothing, so the whole of the configured path is beyond it
  have shown : segments slash ((configuredPath attributes minioBucket).filter
      (fun c => !isDropped c)) = segments slash given ++ segments slash
        ((configuredPath attributes minioBucket).filter (fun c => !isDropped c)) := by
    rw [(stripSlashes_eq_nil_iff given).mp fallback, List.nil_append]
  rw [pfn2path_of_segments accepted parses hport host hgiven uncut (areSegments_segments _) shown
    legal rel, rel] at read
  have alone := intercalate_injective
    ((areSegments_segments _).append legal.areSegments) (List.append_ne_nil_of_right_ne_nil _
      legal.some) legal.areSegments legal.some
    (List.append_cancel_left (Option.some.inj read))
  have vanishes := (segments_eq_nil_iff _).mp (List.append_left_eq_self.mp alone)
  have path := @configuredPath_eq _ minioBucket _ hgiven
  rw [if_pos fallback] at path
  intro c hc
  by_contra shown
  obtain ⟨other, kept⟩ := not_or.mp shown
  rw [Bool.not_eq_true] at kept
  have inside : c ∈ configuredPath attributes minioBucket := by
    rw [path]
    exact mem_strip_of_not hc (by simpa using other)
  exact other (vanishes c (List.mem_filter.mpr ⟨inside, by rw [kept]; rfl⟩))

/-- Where two plain names are read back, the sides agree. -/
theorem sidesAgree_of_pfn2path (accepted : Default.init attributes minioBucket = .ok protocol)
    (parses : ParsesPfns takes attributes parsePfns)
    (readBack : ∀ lfn : Lfn, IsRelativePath (lfn.rel getPath) →
      protocol.pfn2path parsePfns (protocol.pfn getPath lfn) =
        some (protocol.root ++ lfn.rel getPath)) : SidesAgree takes attributes minioBucket := by
  have legal (name : PyStr) (some : name ≠ []) (safe : name.all isSafe = true) :
      ArePieces [name] :=
    ⟨List.cons_ne_nil name [], by simpa using some, by simpa using safe⟩
  have legalA : ArePieces [py "a"] := legal (py "a") (by decide) (by decide)
  have legalB : ArePieces [py "b"] := legal (py "b") (by decide) (by decide)
  have readA := readBack ⟨[], [], some (py "a")⟩ ⟨[py "a"], legalA, rfl⟩
  have readB := readBack ⟨[], [], some (py "b")⟩ ⟨[py "b"], legalB, rfl⟩
  by_cases missing : attributes.port = none ∨ attributes.prefixAttr = none
  · rw [Default.pfn2path, Default.pfnToKey, parses.missing _ missing] at readA
    cases readA
  obtain ⟨port_ne, given_ne⟩ := not_or.mp missing
  obtain ⟨given, hgiven⟩ := Option.ne_none_iff_exists'.mp given_ne
  obtain ⟨port, hport⟩ := Option.ne_none_iff_exists'.mp port_ne
  have host : PlainHost takes attributes.hostname port := by
    have read : protocol.pfn2path parsePfns (protocol.pfn getPath ⟨[], [], some (py "a")⟩) ≠
        none := by
      rw [readA]
      exact Option.some_ne_none _
    exact plainHost_of_pfn2path accepted parses hport legalA rfl read
  refine ⟨⟨port, hport, host⟩, given, hgiven, ?_⟩
  by_cases fallback : stripSlashes given = []
  · rw [if_pos fallback]
    have apart : protocol.pfn2path parsePfns (protocol.pfn getPath ⟨[], [], some (py "a")⟩) ≠
        protocol.pfn2path parsePfns (protocol.pfn getPath ⟨[], [], some (py "b")⟩) := by
      rw [readA, readB]
      intro same
      have names : py "a" = py "b" := List.append_cancel_left (Option.some.inj same)
      exact absurd names (by decide)
    have uncut := uncut_of_pfn2path accepted parses hport host hgiven legalA legalB rfl rfl apart
    exact vanishes_of_pfn2path accepted parses hport host hgiven fallback uncut legalA rfl readA
  · rw [pfn2path_pfn accepted parses hport host hgiven legalA rfl] at readA
    rw [if_neg fallback]
    intro c hc
    by_contra unreadable
    have reason : isDropped c = true ∨ isCut c = true := by
      rw [not_and_or, Bool.not_eq_false, Bool.not_eq_false] at unreadable
      exact unreadable
    rw [readPath_unreadable hc reason] at readA
    cases readA

theorem mem_lfns2pfns {lfns : List Lfn} {entry : PyStr × PyStr}
    (h : entry ∈ protocol.lfns2pfns getPath lfns) :
    ∃ lfn ∈ lfns, entry = (lfn.did, protocol.pfn getPath lfn) := by
  induction lfns using List.reverseRecOn with
  | nil => cases h
  | append_singleton lfns lfn ih =>
    rw [Default.lfns2pfns, List.foldl_append] at h
    rcases mem_setEntry h with rfl | old
    · exact ⟨lfn, List.mem_append_right _ List.mem_cons_self, rfl⟩
    · obtain ⟨earlier, inside, same⟩ := ih old
      exact ⟨earlier, List.mem_append_left _ inside, same⟩

/-- The round trip works exactly in the configurations in which the sides agree. -/
theorem roundTrips_iff (accepted : Default.init attributes minioBucket = .ok protocol)
    (parses : ParsesPfns takes attributes parsePfns) :
    RoundTrips protocol getPath parsePfns ↔ SidesAgree takes attributes minioBucket := by
  constructor
  · intro trips
    apply sidesAgree_of_pfn2path accepted parses
    intro lfn legal
    obtain ⟨lfn', own, -, read, -⟩ := trips.decodes [lfn] (by simpa using legal)
      (lfn.did, protocol.pfn getPath lfn) List.mem_cons_self
    rwa [List.mem_singleton.mp own] at read
  · intro agree
    refine ⟨?_, ?_⟩
    · intro lfns legal entry hentry
      obtain ⟨lfn, own, rfl⟩ := mem_lfns2pfns hentry
      exact ⟨lfn, own, rfl, pfn2path_of_sidesAgree accepted parses agree (legal lfn own),
        pfn_eq lfn⟩
    · intro lfn lfn' legal legal' apart same
      rw [pfn2path_of_sidesAgree accepted parses agree legal,
        pfn2path_of_sidesAgree accepted parses agree legal'] at same
      exact apart (List.append_cancel_left (Option.some.inj same))

end Configurations

section Samples

/-- A netloc without brackets, in ASCII. -/
def takesAscii (netloc : PyStr) : Bool :=
  netloc.all fun c => c.val < 0x80 && c.val != 0x5B && c.val != 0x5D

/-- A parser for PFNs with the address of the protocol. -/
def parseOwn (attributes : Attributes) (pfn : PyStr) : Option ParsedPfn :=
  match attributes.port, attributes.prefixAttr with
  | some port, some given =>
    let own := address attributes.hostname port
    if own.isPrefixOf pfn ∧ takesAscii (netloc pfn) = true ∧
        hostOf (netloc pfn) = attributes.hostname then readPath given (pfn.drop own.length)
    else none
  | _, _ => none

theorem parsesPfns_parseOwn (attributes : Attributes) :
    ParsesPfns takesAscii attributes (parseOwn attributes) where
  missing pfn missing := by
    rw [parseOwn]
    rcases missing with none | none
    · rw [none]
    · rw [none]
      cases attributes.port <;> rfl
  own port given rest hport hgiven _ taken same := by
    rw [parseOwn, hport, hgiven]
    dsimp only
    rw [if_pos ⟨List.isPrefixOf_iff_prefix.mpr (List.prefix_append _ _), taken, same⟩,
      List.drop_left]
  refused port rest hport _ reason := by
    rw [parseOwn, hport]
    cases attributes.prefixAttr with
    | none => rfl
    | some given =>
      dsimp only
      rw [if_neg]
      rintro ⟨-, taken, same⟩
      rcases reason with refused | other
      · rw [taken] at refused
        cases refused
      · exact other same

def sampleAttributes (given : PyStr) : Attributes where
  hostname := py "minio"
  port := some 9000
  prefixAttr := some given

theorem roundTrips_iff_sample :
    RoundTrips ⟨sampleAttributes (py "/dasi//data"), py "dasi", py "/data/"⟩ (fun _ name => name)
      (parseOwn (sampleAttributes (py "/dasi//data"))) ↔
    SidesAgree takesAscii (sampleAttributes (py "/dasi//data")) none :=
  roundTrips_iff rfl (parsesPfns_parseOwn _)

/-- Prefix `/` and `MINIO_BUCKET=dasi`. -/
def fallbackProtocol : Default := ⟨sampleAttributes (py "/"), py "dasi", []⟩

def sampleLfn : Lfn := ⟨py "user.root", py "b", some (py "/a/b")⟩

theorem bucket_in_key :
    Default.init (sampleAttributes (py "/")) (some (py "dasi")) = .ok fallbackProtocol ∧
    ParsesPfns takesAscii (sampleAttributes (py "/")) (parseOwn (sampleAttributes (py "/"))) ∧
    fallbackProtocol.lfns2pfns (fun _ name => name) [sampleLfn] =
      [(py "user.root:b", py "s3://minio:9000/dasi/a/b")] ∧
    fallbackProtocol.pfn2path (parseOwn (sampleAttributes (py "/")))
      (py "s3://minio:9000/dasi/a/b") = some (py "dasi/a/b") ∧
    ¬ RoundTrips fallbackProtocol (fun _ name => name) (parseOwn (sampleAttributes (py "/"))) := by
  have accepted : Default.init (sampleAttributes (py "/")) (some (py "dasi")) =
      .ok fallbackProtocol := rfl
  have pfns : fallbackProtocol.lfns2pfns (fun _ name => name) [sampleLfn] =
      [(py "user.root:b", py "s3://minio:9000/dasi/a/b")] := by decide
  have key : fallbackProtocol.pfn2path (parseOwn (sampleAttributes (py "/")))
      (py "s3://minio:9000/dasi/a/b") = some (py "dasi/a/b") := by decide
  refine ⟨accepted, parsesPfns_parseOwn _, pfns, key, ?_⟩
  intro trips
  have legal : ArePieces [py "a", py "b"] := by
    refine ⟨by decide, by decide, ?_⟩
    intro s hs
    rcases List.mem_pair.mp hs with rfl | rfl
    · exact List.all_eq_true.mp (by decide)
    · exact List.all_eq_true.mp (by decide)
  obtain ⟨lfn, own, -, read, -⟩ := trips.decodes [sampleLfn]
    (fun lfn own => List.mem_singleton.mp own ▸ ⟨[py "a", py "b"], legal, rfl⟩)
    (py "user.root:b", py "s3://minio:9000/dasi/a/b") (pfns ▸ List.mem_cons_self)
  rw [List.mem_singleton.mp own, key] at read
  exact absurd read (by decide)

end Samples

end S3Protocol
