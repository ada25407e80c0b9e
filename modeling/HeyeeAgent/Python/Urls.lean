import HeyeeAgent.Python.Collections
import HeyeeAgent.Python.Text
import Mathlib.Data.List.DropRight

/-! # URLs as `urllib.parse` reads them

A URL is cut at the first colon, behind two slashes, and at the first number sign and question mark.
Tabs and line ends inside it are removed before, so they are lost wherever they stood.
-/

namespace Python.Urls

/-- What is asked of a host in brackets and, by its normal form, of one that is not ASCII -/
structure HostChecks where
  bracketed : Str → Bool
  nfkc : Str → Bool

structure ParseResult where
  scheme : Str
  netloc : Str
  path : Str
  params : Str
  query : Str
  fragment : Str

section Split

def isAlpha (c : ℕ) : Bool := (65 ≤ c && c ≤ 90) || (97 ≤ c && c ≤ 122)

def isDigit (c : ℕ) : Bool := 48 ≤ c && c ≤ 57

/-- `scheme_chars` -/
def isSchemeChar (c : ℕ) : Bool := isAlpha c || isDigit c || c == 43 || c == 45 || c == 46

/-- `str.lower`, of a character of a scheme -/
def lower (c : ℕ) : ℕ := if 65 ≤ c ∧ c ≤ 90 then c + 32 else c

/-- `_UNSAFE_URL_BYTES_TO_REMOVE` -/
def isUnsafe (c : ℕ) : Bool := c == 9 || c == 10 || c == 13

def cleaned (url : Str) : Str := (url.dropWhile (· ≤ 32)).filter fun c => !isUnsafe c

def splitScheme (url : Str) : Str × Str :=
  let name := url.takeWhile (· != 58)
  if url.head?.any isAlpha && name.all isSchemeChar && name.length < url.length then
    (name.map lower, url.drop (name.length + 1))
  else ([], url)

/-- Not one of `/?#` -/
def inNetloc (c : ℕ) : Bool := c != 47 && c != 63 && c != 35

def splitNetloc (url : Str) : Str × Str :=
  if (Str.lit "//").isPrefixOf url then
    ((url.drop 2).takeWhile inNetloc, (url.drop 2).dropWhile inNetloc)
  else ([], url)

def checkNetloc (checks : HostChecks) (netloc : Str) : Bool :=
  let opening := isIn 91 netloc
  (opening == isIn 93 netloc) && (!opening || checks.bracketed netloc) &&
    (netloc.all (· < 128) || checks.nfkc netloc)

/-- What stands before and behind the first mark -/
def cut (mark : ℕ) (text : Str) : Str × Str :=
  (text.takeWhile (· != mark), (text.dropWhile (· != mark)).drop 1)

def usesParams : List Str :=
  ["", "ftp", "hdl", "prospero", "http", "imap", "https", "shttp", "rtsp", "rtsps", "rtspu", "sip",
    "sips", "mms", "sftp", "tel"].map Str.lit

/-- `_splitparams`, at the first semicolon behind the last slash -/
def splitParams (path : Str) : Str × Str :=
  let start := path.rdropWhile (· != 47)
  let last := path.rtakeWhile (· != 47)
  (start ++ (cut 59 last).1, (cut 59 last).2)

/-- none where it raises `ValueError` -/
def urlparse (checks : HostChecks) (url : Str) : Option ParseResult :=
  let (scheme, rest) := splitScheme (cleaned url)
  let (netloc, rest) := splitNetloc rest
  if checkNetloc checks netloc then
    let (rest, fragment) := cut 35 rest
    let (path, query) := cut 63 rest
    let (path, params) := if isIn scheme usesParams then splitParams path else (path, [])
    some { scheme, netloc, path, params, query, fragment }
  else none

end Split

section Paths

variable {checks : HostChecks} {url text : Str} {parsed : ParseResult}

/-- Neither removed from a URL nor the end of its path -/
def isPathChar (c : ℕ) : Bool := !isUnsafe c && c != 35 && c != 63

/-- What the path keeps of a text -/
def pathOf (text : Str) : Str := (cut 63 (cut 35 (text.filter fun c => !isUnsafe c)).1).1

theorem pathOf_eq_self_iff : pathOf text = text ↔ ∀ c ∈ text, isPathChar c = true := by
  constructor
  · intro kept c member
    rw [← kept] at member
    have before := List.takeWhile_subset _ member
    have safe := (List.mem_filter.mp (List.takeWhile_subset _ before)).2
    have unmarked := List.mem_takeWhile_imp (p := fun c => c != 35) before
    have unasked := List.mem_takeWhile_imp (p := fun c => c != 63) member
    simp only [isPathChar, Bool.and_eq_true]
    exact ⟨⟨safe, unmarked⟩, unasked⟩
  · intro plain
    simp only [isPathChar, Bool.and_eq_true] at plain
    rw [pathOf, List.filter_eq_self.mpr fun c member => (plain c member).1.1, cut, cut,
      List.takeWhile_eq_self_iff.mpr fun c member => (plain c member).1.2,
      List.takeWhile_eq_self_iff.mpr fun c member => (plain c member).2]

theorem bounds_of_isSchemeChar {c : ℕ} (char : isSchemeChar c = true) :
    32 < c ∧ c ≠ 58 ∧ isUnsafe c = false := by
  simp only [isSchemeChar, isAlpha, isDigit, Bool.or_eq_true, Bool.and_eq_true, decide_eq_true_eq,
    beq_iff_eq] at char
  simp only [isUnsafe, Bool.or_eq_false_iff, beq_eq_false_iff_ne]
  omega

/-- Nothing is removed from a scheme. -/
theorem cleaned_append {name : Str} (first : name.head?.any isAlpha = true)
    (scheme : ∀ c ∈ name, isSchemeChar c = true) (rest : Str) :
    cleaned (name ++ rest) = name ++ rest.filter fun c => !isUnsafe c := by
  have kept : name.filter (fun c => !isUnsafe c) = name := by
    refine List.filter_eq_self.mpr fun c member => ?_
    rw [(bounds_of_isSchemeChar (scheme c member)).2.2]
    rfl
  cases name with
  | nil => cases first
  | cons c name =>
    have above := (bounds_of_isSchemeChar (scheme c List.mem_cons_self)).1
    rw [cleaned, List.cons_append, List.dropWhile_cons_of_neg (by simpa using above),
      ← List.cons_append, List.filter_append, kept]

theorem splitScheme_append {name : Str} (first : name.head?.any isAlpha = true)
    (scheme : ∀ c ∈ name, isSchemeChar c = true) (rest : Str) :
    splitScheme (name ++ 58 :: rest) = (name.map lower, rest) := by
  have taken : (name ++ 58 :: rest).takeWhile (· != 58) = name := by
    rw [List.takeWhile_append_of_pos fun c member => by
      simpa using (bounds_of_isSchemeChar (scheme c member)).2.1,
      List.takeWhile_cons_of_neg (by simp), List.append_nil]
  have head : (name ++ 58 :: rest).head?.any isAlpha = true := by
    cases name with
    | nil => cases first
    | cons c name => exact first
  have all : name.all isSchemeChar = true := List.all_eq_true.mpr scheme
  rw [splitScheme, taken, head, all, if_pos (by simp), ← List.drop_drop, List.drop_left]
  rfl

theorem splitNetloc_append {netloc : Str} (host : ∀ c ∈ netloc, inNetloc c = true) (rest : Str) :
    splitNetloc (.lit "//" ++ netloc ++ 47 :: rest) = (netloc, 47 :: rest) := by
  have slashes : Str.lit "//" ++ netloc ++ 47 :: rest = 47 :: 47 :: (netloc ++ 47 :: rest) := rfl
  rw [slashes, splitNetloc, if_pos (by rfl)]
  simp only [List.drop_succ_cons, List.drop_zero]
  rw [List.takeWhile_append_of_pos host, List.dropWhile_append_of_pos host,
    List.takeWhile_cons_of_neg (by decide), List.dropWhile_cons_of_neg (by decide), List.append_nil]

theorem checkNetloc_of_ascii {netloc : Str} (ascii : ∀ c ∈ netloc, c < 128)
    (opening : 91 ∉ netloc) (closing : 93 ∉ netloc) : checkNetloc checks netloc = true := by
  have first : isIn 91 netloc = false := (Bool.not_eq_true _).mp (mt isIn_iff.mp opening)
  have second : isIn 93 netloc = false := (Bool.not_eq_true _).mp (mt isIn_iff.mp closing)
  have all : netloc.all (· < 128) = true :=
    List.all_eq_true.mpr fun c member => decide_eq_true (ascii c member)
  rw [checkNetloc, first, second, all]
  rfl

/-- A URL with a scheme without parameters, a host and a path -/
theorem urlparse_of_host (checks : HostChecks) {name netloc : Str} (rest : Str)
    (first : name.head?.any isAlpha = true)
    (scheme : ∀ c ∈ name, isSchemeChar c = true) (other : isIn (name.map lower) usesParams = false)
    (host : ∀ c ∈ netloc, c < 128 ∧ c ≠ 91 ∧ c ≠ 93 ∧ inNetloc c = true ∧ isUnsafe c = false) :
    ∃ query fragment, urlparse checks (name ++ .lit "://" ++ netloc ++ .lit "/" ++ rest) =
      some { scheme := name.map lower, netloc, path := 47 :: pathOf rest, params := [], query,
             fragment } := by
  have whole : name ++ .lit "://" ++ netloc ++ .lit "/" ++ rest =
      name ++ 58 :: (.lit "//" ++ netloc ++ 47 :: rest) := by
    simp only [List.append_assoc]
    rfl
  have safe : netloc.filter (fun c => !isUnsafe c) = netloc := by
    refine List.filter_eq_self.mpr fun c member => ?_
    rw [(host c member).2.2.2.2]
    rfl
  have clean : (58 :: (Str.lit "//" ++ netloc ++ 47 :: rest)).filter (fun c => !isUnsafe c) =
      58 :: (.lit "//" ++ netloc ++ 47 :: rest.filter fun c => !isUnsafe c) := by
    rw [List.filter_cons_of_pos (by decide), List.filter_append, List.filter_append, safe,
      List.filter_cons_of_pos (by decide)]
    rfl
  rw [whole, urlparse, cleaned_append first scheme, clean, splitScheme_append first scheme]
  dsimp only
  rw [splitNetloc_append fun c member => (host c member).2.2.2.1]
  dsimp only
  rw [if_pos (checkNetloc_of_ascii (fun c member => (host c member).1)
    (fun member => (host 91 member).2.1 rfl) (fun member => (host 93 member).2.2.1 rfl)), other,
    if_neg Bool.false_ne_true]
  exact ⟨_, _, rfl⟩

/-- The scheme of a URL, whatever follows it -/
theorem scheme_of_urlparse {name : Str} (first : name.head?.any isAlpha = true)
    (scheme : ∀ c ∈ name, isSchemeChar c = true) {rest : Str}
    (read : urlparse checks (name ++ 58 :: rest) = some parsed) :
    parsed.scheme = name.map lower := by
  rw [urlparse, cleaned_append first scheme, List.filter_cons_of_pos (by decide),
    splitScheme_append first scheme] at read
  dsimp only at read
  obtain ⟨-, read⟩ := Option.ite_none_right_eq_some.mp read
  rw [← Option.some.inj read]

end Paths

end Python.Urls
