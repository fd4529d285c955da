import NexoraGateway.Http.Client
import NexoraGateway.Text.Forms

/-!
# URLs in messages (`shared/src/utils/http-client.ts`)

| here | there |
|---|---|
| `redactUrl` | :92 |
| `replace`, the `catch` of it | :102 |
| `searchParams`, the `URLSearchParams` of `buildQueryString` | :113 |

A URL that can be parsed is redacted by the names of its parameters, another one by a pattern. The names are compared as
they are, the pattern ignores the case of letters but takes the text as it stands. `redacted_iff` says which URLs have
every sensitive parameter redacted.

The parser of URLs is a parameter. What it makes of a query, and how that is written, is in `Text/Forms`.
-/
namespace NexoraGateway.Http

/-! ## URLs that are parsed -/

/-- A `URL`: the text before its query, the query, the fragment. No `?` or `#` is left in the front of it, and no `#` in
the query. -/
structure Url where
  front : List Char
  query : Option (List Char)
  fragment : Option (List Char)
  front_clean : ∀ c ∈ front, c ≠ '?' ∧ c ≠ '#'
  query_clean : '#' ∉ query.getD []

abbrev Params := List (List Char × List Char)

namespace Params

def has (params : Params) (name : List Char) : Bool := params.any (·.1 = name)

/-- `set`: the first of a name takes the value, and the others go. -/
def set (name value : List Char) : Params → Params
  | [] => [(name, value)]
  | p :: params => if p.1 = name then (name, value) :: params.filter (·.1 ≠ name) else p :: set name value params

end Params

namespace Url

/-- `toString()`. -/
def href (url : Url) : List Char :=
  url.front ++ (url.query.elim [] ('?' :: ·) ++ url.fragment.elim [] ('#' :: ·))

def searchParams (url : Url) : Params := Text.Form.parse (url.query.getD [])

/-- What a change of `searchParams` makes of a URL: no parameters are no query. -/
def update (url : Url) (params : Params) : Url :=
  let query := Text.Form.serialize params
  { url with
    query := if query = [] then none else some query
    query_clean := by
      split
      · simp
      · exact Text.Form.serialize_clean params }

end Url

/-- `sensitiveParams`, which are also the alternatives of the pattern. -/
def sensitiveParams : List (List Char) :=
  ["apikey", "api_key", "key", "token", "secret", "access_token"].map String.toList

def marker : List Char := "***REDACTED***".toList

/-- One round of the loop. -/
def redactParam (url : Url) (param : List Char) : Url :=
  if url.searchParams.has param then url.update (url.searchParams.set param marker) else url

/-- `new URLSearchParams()` after its `set`s, as a string. The keys of an object are distinct. -/
def searchParams (entries : List (String × String)) : String :=
  String.ofList (Text.Form.serialize (entries.map fun e => (e.1.toList, e.2.toList)))

/-! ## URLs that are not -/

/-- `(apikey|…)=` at the beginning, in any case: what `$1` stands for. No alternative has a `=`. -/
def named? (cs : List Char) : Option (List Char) :=
  let name := cs.takeWhile (· ≠ '=')
  if name.map Char.toLower ∈ sensitiveParams ∧ name.length < cs.length then some name else none

/-- `replace(/[?&](apikey|…)=[^&]*/gi, '&$1=***REDACTED***')`, within a match or between two. -/
def replace (matched : Bool) : List Char → List Char
  | [] => []
  | c :: cs =>
    if c = '&' ∨ (c = '?' ∧ matched = false) then
      match named? cs with
      | some name => '&' :: (name ++ '=' :: (marker ++ replace true cs))
      | none => c :: replace false cs
    else if matched then replace true cs
    else c :: replace false cs

def redactUrl (parse : String → Option Url) (url : String) : String :=
  String.ofList (match parse url with
    | some parsed => (sensitiveParams.foldl redactParam parsed).href
    | none => replace false url.toList)

/-! ## Parameters of a text -/

/-- The query of an absolute URL. -/
def queryOf (text : List Char) : List Char := ((text.takeWhile (· ≠ '#')).dropWhile (· ≠ '?')).drop 1

def isDelimiter (c : Char) : Bool := c = '?' || c = '&'

/-- What follows the delimiters. -/
def pieces (text : List Char) : List (List Char) := (text.splitOnP isDelimiter).tail

/-- The parameters of an absolute URL are those of its query. Of another text, what follows a delimiter is one. -/
def parameters (absolute : Bool) (text : String) : Params :=
  if absolute then Text.Form.parse (queryOf text.toList) else (pieces text.toList).map Text.Form.pair

/-- The name is one of `sensitiveParams`, up to the case of its letters. -/
def Sensitive (name : List Char) : Prop := name.map Char.toLower ∈ sensitiveParams

/-- Every sensitive parameter carries the marker. -/
def Redacted (params : Params) : Prop := ∀ p ∈ params, Sensitive p.1 → p.2 = marker

instance (name : List Char) : Decidable (Sensitive name) := inferInstanceAs (Decidable (_ ∈ _))
instance (params : Params) : Decidable (Redacted params) := inferInstanceAs (Decidable (∀ p ∈ params, _ → _))

/-- The pieces at which the pattern is tried: not those that a match has swallowed. -/
def tried (matched : Bool) : List Char → List (List Char)
  | [] => []
  | c :: cs =>
    if c = '&' ∨ (c = '?' ∧ matched = false) then
      cs.takeWhile (fun c => !isDelimiter c) :: tried (named? cs).isSome cs
    else tried matched cs

/-- What the replacement makes of a piece. -/
def mark (piece : List Char) : List Char :=
  match named? piece with
  | some name => name ++ '=' :: marker
  | none => piece

section
variable {url : Url} {params : Params} {name value param cs : List Char} {p : List Char × List Char}

/-! ## The loop -/

theorem has_iff : params.has name = true ↔ ∃ p ∈ params, p.1 = name := by simp [Params.has]

theorem mem_set (h : params.has name = true) :
    p ∈ params.set name value ↔ p = (name, value) ∨ p ∈ params ∧ p.1 ≠ name := by
  induction params with
  | nil => cases h
  | cons q params ih =>
    rw [Params.set]
    split
    · rename_i hq
      simp only [List.mem_cons, List.mem_filter, decide_eq_true_eq]
      grind
    · rename_i hq
      have hparams : Params.has params name = true := by simpa [Params.has, hq] using h
      rw [List.mem_cons, ih hparams, List.mem_cons]
      grind

theorem searchParams_update : (url.update params).searchParams = params := by
  have hquery : (url.update params).query.getD [] = Text.Form.serialize params := by
    rw [Url.update]
    dsimp only
    split
    · rename_i hnil
      rw [hnil, Option.getD_none]
    · rfl
  rw [Url.searchParams, hquery, Text.Form.parse_serialize]

/-- A round redacts the parameters of one name. -/
theorem mem_redactParam : p ∈ (redactParam url param).searchParams ↔
    (p = (param, marker) ∧ url.searchParams.has param = true) ∨ p ∈ url.searchParams ∧ p.1 ≠ param := by
  unfold redactParam
  split
  · rename_i hhas
    rw [searchParams_update, mem_set hhas, and_iff_left hhas]
  · rename_i hhas
    rw [has_iff] at hhas
    grind [has_iff]

theorem has_redactParam :
    (redactParam url param).searchParams.has name = true ↔ url.searchParams.has name = true := by
  constructor
  · intro h
    obtain ⟨q, hq, rfl⟩ := has_iff.1 h
    rcases mem_redactParam.1 hq with ⟨rfl, hhas⟩ | ⟨hmem, -⟩
    · exact hhas
    · exact has_iff.2 ⟨q, hmem, rfl⟩
  · intro h
    by_cases hname : name = param
    · subst hname
      exact has_iff.2 ⟨(name, marker), mem_redactParam.2 (.inl ⟨rfl, h⟩), rfl⟩
    · obtain ⟨q, hq, rfl⟩ := has_iff.1 h
      exact has_iff.2 ⟨q, mem_redactParam.2 (.inr ⟨hq, hname⟩), rfl⟩

/-- **The loop** redacts the parameters of all of them. -/
theorem mem_foldl_redactParam (names : List (List Char)) : p ∈ (names.foldl redactParam url).searchParams ↔
    (p.2 = marker ∧ p.1 ∈ names ∧ url.searchParams.has p.1 = true) ∨ p ∈ url.searchParams ∧ p.1 ∉ names := by
  induction names generalizing url with
  | nil => simp
  | cons name names ih =>
    rw [List.foldl_cons, ih, has_redactParam, mem_redactParam, List.mem_cons]
    grind

theorem queryOf_href (url : Url) : queryOf url.href = url.query.getD [] := by
  have hfront : ∀ c ∈ url.front, decide (c ≠ '#') = true ∧ decide (c ≠ '?') = true := fun c hc => by
    simpa using (url.front_clean c hc).symm
  have hquery : ∀ c ∈ url.query.elim [] ('?' :: ·), decide (c ≠ '#') = true := by
    have hclean := url.query_clean
    cases hq : url.query with
    | none => simp
    | some query =>
      rw [hq, Option.getD_some] at hclean
      intro c hc
      rw [decide_eq_true_iff]
      rintro rfl
      rcases List.mem_cons.1 hc with hc | hc
      · cases hc
      · exact hclean hc
  have htake : url.href.takeWhile (· ≠ '#') = url.front ++ url.query.elim [] ('?' :: ·) := by
    rw [Url.href, List.takeWhile_append_of_pos fun c hc => (hfront c hc).1, List.takeWhile_append_of_pos hquery]
    cases url.fragment with
    | none => simp
    | some fragment => simp
  rw [queryOf, htake, List.dropWhile_append_of_pos fun c hc => (hfront c hc).2]
  cases url.query with
  | none => rfl
  | some query => simp

/-- The URL of a request has the parameters of its query: what may show in a message is up to their names. -/
theorem parse_queryOf_url {T : Type} {config : HttpClientConfig} {options : RequestOptions} {world : World T}
    (hworld : world.searchParams = searchParams)
    (hfront : ∀ c ∈ (config.base ++ options.path).toList, c ≠ '?' ∧ c ≠ '#') :
    Text.Form.parse (queryOf (Http.url config options world).toList) =
      (options.query.filterMap fun (key, value) => value.map (key, ·)).map fun e => (e.1.toList, e.2.toList) := by
  let front : Url :=
    { front := (config.base ++ options.path).toList, query := none, fragment := none
      front_clean := hfront, query_clean := List.not_mem_nil }
  let params : Params :=
    (options.query.filterMap fun (key, value) => value.map (key, ·)).map fun e => (e.1.toList, e.2.toList)
  have hurl : (Http.url config options world).toList = (front.update params).href := by
    rw [Http.url, buildQueryString, hworld, searchParams]
    dsimp only
    rw [Url.href, Url.update]
    by_cases hnil : Text.Form.serialize params = []
    · simp [front, params, hnil]
    · have hne : String.ofList (Text.Form.serialize params) ≠ "" := by simpa using hnil
      simp [front, params, hnil, hne]
  rw [hurl, queryOf_href, ← Url.searchParams, searchParams_update]

/-! ## The pattern -/

theorem Sensitive.clean {c : Char} (h : Sensitive name) (hc : c ∈ name) : c ∉ ['?', '&', '='] := by
  intro hmem
  have hnames : sensitiveParams.all (fun name => name.all fun c => c ∉ ['?', '&', '=']) = true := by decide +kernel
  have hlower : c.toLower = c := by
    simp only [List.mem_cons, List.not_mem_nil, or_false] at hmem
    rcases hmem with rfl | rfl | rfl <;> rfl
  have hclean := List.all_eq_true.1 (List.all_eq_true.1 hnames _ h) _ (List.mem_map_of_mem hc)
  rw [hlower] at hclean
  exact of_decide_eq_true hclean hmem

theorem named?_eq_some : named? cs = some name ↔ Sensitive name ∧ ∃ value, cs = name ++ '=' :: value := by
  constructor
  · intro h
    unfold named? at h
    dsimp only at h
    split at h
    · rename_i hmatch
      cases h
      refine ⟨hmatch.1, ?_⟩
      have hsplit : cs.takeWhile (· ≠ '=') ++ cs.dropWhile (· ≠ '=') = cs := List.takeWhile_append_dropWhile
      cases hrest : cs.dropWhile (· ≠ '=') with
      | nil =>
        rw [hrest, List.append_nil] at hsplit
        rw [hsplit] at hmatch
        exact absurd hmatch.2 (lt_irrefl _)
      | cons c value =>
        have hstop := List.head?_dropWhile_not (fun c => decide (c ≠ '=')) cs
        rw [hrest] at hstop
        obtain rfl : c = '=' := by simpa using hstop
        exact ⟨value, by rw [← hrest, hsplit]⟩
    · cases h
  · rintro ⟨hname, value, rfl⟩
    have hclean : ∀ c ∈ name, decide (c ≠ '=') = true := fun c hc => by
      have := hname.clean hc
      simp_all
    have htake : (name ++ '=' :: value).takeWhile (· ≠ '=') = name := by
      rw [List.takeWhile_append_of_pos hclean, List.takeWhile_cons_of_neg (by decide), List.append_nil]
    rw [named?, htake]
    exact if_pos ⟨hname, by simp⟩

/-- A match does not go beyond the piece that it begins in. -/
theorem named?_takeWhile (cs : List Char) : named? (cs.takeWhile fun c => !isDelimiter c) = named? cs := by
  ext name
  rw [named?_eq_some, named?_eq_some]
  refine and_congr_right fun hname => ⟨?_, ?_⟩
  · rintro ⟨value, hvalue⟩
    refine ⟨value ++ cs.dropWhile fun c => !isDelimiter c, ?_⟩
    rw [← List.cons_append, ← List.append_assoc, ← hvalue, List.takeWhile_append_dropWhile]
  · rintro ⟨value, rfl⟩
    have hclean : ∀ c ∈ name, (!isDelimiter c) = true := fun c hc => by
      have := hname.clean hc
      simp_all [isDelimiter]
    exact ⟨_, by rw [List.takeWhile_append_of_pos hclean, List.takeWhile_cons_of_pos (by decide)]⟩

theorem splitOnP_append (hcs : ∀ c ∈ cs, isDelimiter c = false) (rest : List Char) :
    (cs ++ rest).splitOnP isDelimiter = (rest.splitOnP isDelimiter).modifyHead (cs ++ ·) := by
  induction cs with
  | nil => exact (congrFun List.modifyHead_id _).symm
  | cons c cs ih =>
    obtain ⟨hc, hcs⟩ := List.forall_mem_cons.1 hcs
    rw [List.cons_append, List.splitOnP_cons_eq_if_modifyHead, if_neg (by simp [hc]), ih hcs,
      List.modifyHead_modifyHead]
    rfl

/-- The pieces of what is written are those at which the pattern was tried. -/
theorem splitOnP_replace (matched : Bool) (text : List Char) : (replace matched text).splitOnP isDelimiter =
    (if matched then [] else text.takeWhile fun c => !isDelimiter c) :: (tried matched text).map mark := by
  induction text generalizing matched with
  | nil => cases matched <;> simp [replace, tried]
  | cons c cs ih =>
    rw [replace, tried]
    split
    · rename_i hstart
      have hdelimiter : isDelimiter c = true := by
        unfold isDelimiter
        grind
      have hhead : (if matched then [] else (c :: cs).takeWhile fun c => !isDelimiter c) = [] := by
        simp [hdelimiter]
      rw [hhead, List.map_cons, mark, named?_takeWhile]
      cases hname : named? cs with
      | none =>
        dsimp only
        rw [List.splitOnP_cons_eq_if_modifyHead, if_pos hdelimiter, ih]
        rfl
      | some name =>
        have hclean : ∀ c ∈ name ++ '=' :: marker, isDelimiter c = false := by
          have hmarker : ('=' :: marker).any isDelimiter = false := by decide +kernel
          intro c hc
          rcases List.mem_append.1 hc with hc | hc
          · have := (named?_eq_some.1 hname).1.clean hc
            simp_all [isDelimiter]
          · exact Bool.eq_false_iff.2 (List.any_eq_false.1 hmarker c hc)
        dsimp only
        rw [List.splitOnP_cons_eq_if_modifyHead, if_pos (by decide), ← List.cons_append, ← List.append_assoc,
          splitOnP_append hclean, ih]
        simp
    · rename_i hgoes
      cases matched with
      | true => exact ih true
      | false =>
        have hdelimiter : isDelimiter c = false := by
          unfold isDelimiter
          grind
        rw [if_neg (by decide), List.splitOnP_cons_eq_if_modifyHead, if_neg (by simp [hdelimiter]), ih]
        simp [hdelimiter]

/-! ## Both -/

/-- A piece carries the marker when it is matched, or when it had it. -/
theorem redacted_mark {piece : List Char} :
    (Sensitive (Text.Form.pair (mark piece)).1 → (Text.Form.pair (mark piece)).2 = marker) ↔
      (named? piece).isSome ∨ (Sensitive (Text.Form.pair piece).1 → (Text.Form.pair piece).2 = marker) := by
  rw [mark]
  cases hname : named? piece with
  | none => simp
  | some name =>
    have hmarker : Text.Form.decode marker = marker := by decide +kernel
    have hclean : '=' ∉ name := fun h => absurd ((named?_eq_some.1 hname).1.clean h) (by decide)
    simp only [Text.Form.pair_append hclean, hmarker, implies_true, Option.isSome_some, true_or]

end

/-- **Every sensitive parameter of a URL is redacted** just when each is spelled as the branch expects it, or carries
the marker already: in lower case where the URL is parsed; elsewhere as it stands, and with a `=`. -/
theorem redacted_iff (parse : String → Option Url) (url : String) :
    Redacted (parameters (parse url).isSome (redactUrl parse url)) ↔
      match parse url with
      | some parsed => ∀ p ∈ parsed.searchParams, Sensitive p.1 → p.1 ∈ sensitiveParams ∨ p.2 = marker
      | none => ∀ piece ∈ tried false url.toList, (named? piece).isSome ∨
          (Sensitive (Text.Form.pair piece).1 → (Text.Form.pair piece).2 = marker) := by
  rw [redactUrl, parameters]
  cases parse url with
  | some parsed =>
    dsimp only
    rw [Option.isSome_some, if_pos rfl, String.toList_ofList, queryOf_href, ← Url.searchParams]
    constructor
    · intro h p hp hname
      by_cases hparam : p.1 ∈ sensitiveParams
      · exact .inl hparam
      · exact .inr (h p ((mem_foldl_redactParam _).2 (.inr ⟨hp, hparam⟩)) hname)
    · intro h p hp hname
      rcases (mem_foldl_redactParam _).1 hp with ⟨hmarker, -⟩ | ⟨hmem, hparam⟩
      · exact hmarker
      · exact (h p hmem hname).resolve_left hparam
  | none =>
    dsimp only
    rw [Option.isSome_none, if_neg (by decide), String.toList_ofList, pieces, splitOnP_replace, List.tail_cons,
      List.map_map, Redacted, List.forall_mem_map]
    exact forall₂_congr fun piece _ => redacted_mark

/-- A parser of two URLs. -/
def dexUrl? (text : String) : Option Url :=
  let url (query : List Char) (h : '#' ∉ query) : Url :=
    { front := "https://dex.example/quote".toList, query := some query, fragment := none
      front_clean := by simp
      query_clean := h }
  if text = "https://dex.example/quote?ApiKey=abc" then some (url "ApiKey=abc".toList (by decide +kernel))
  else if text = "https://dex.example/quote?to%6Ben=abc" then some (url "to%6Ben=abc".toList (by decide +kernel))
  else none

/-- A name in another case is redacted where the URL cannot be parsed, and is not where it can; a name that is
percent-encoded, the other way round. -/
theorem redactUrl_spellings :
    redactUrl dexUrl? "https://dex.example/quote?ApiKey=abc" = "https://dex.example/quote?ApiKey=abc" ∧
      redactUrl dexUrl? "/quote?ApiKey=abc" = "/quote&ApiKey=***REDACTED***" ∧
      redactUrl dexUrl? "https://dex.example/quote?to%6Ben=abc" = "https://dex.example/quote?token=***REDACTED***" ∧
      redactUrl dexUrl? "/quote?to%6Ben=abc" = "/quote?to%6Ben=abc" ∧
      ∀ url ∈ ["https://dex.example/quote?ApiKey=abc", "/quote?to%6Ben=abc"],
        ¬ Redacted (parameters (dexUrl? url).isSome (redactUrl dexUrl? url)) := by
  decide +kernel

end NexoraGateway.Http
