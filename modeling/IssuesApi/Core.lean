import IssuesApi.Schemas

/-!
# What the service reads of GitHub's objects

The service projects a few members of GitHub's objects and drops the rest.  The *core* of an
object is what is left of it when everything else is removed: of an issue or a comment the
members its projection looks up, of its labels the names, of its author the login.  Of a pull
request nothing is read but that it is one.  The projections cannot tell an object from its
core.

A core lists the members in an order of its own, so that objects have the same core when every
lookup gives the same.
-/

namespace IssuesApi

/-- What the given keys are looked up to, each reduced to what is read of it. -/
def readMembers (kept : List (String × (Json → Json))) (fields : List (PyStr × Json)) :
    List (PyStr × Json) :=
  dumpAll (kept.map fun k => (k.1, (dictGet fields k.1).map k.2))

/-- The core of a value of which these members are read, when it is an object. -/
def coreObject (kept : List (String × (Json → Json))) : Json → Json
  | .obj fields => .obj (readMembers kept fields)
  | value => value

/-- A label object is read for its name. -/
def coreLabel : Json → Json := coreObject [("name", id)]

def coreLabels : Json → Json
  | .arr labels => .arr (labels.map coreLabel)
  | labels => labels

/-- A user object is read for its login. -/
def coreUser : Json → Json := coreObject [("login", id)]

/-- The members of an issue that are read. -/
def issueMembers : List (String × (Json → Json)) :=
  [("number", id), ("title", id), ("body", id), ("state", id), ("labels", coreLabels),
    ("html_url", id), ("user", coreUser), ("comments", id), ("created_at", id),
    ("updated_at", id), ("closed_at", id)]

/-- Those of a comment. -/
def commentMembers : List (String × (Json → Json)) :=
  [("id", id), ("body", id), ("user", coreUser), ("html_url", id), ("created_at", id),
    ("updated_at", id)]

def coreIssue : Json → Json := coreObject issueMembers

def coreComment : Json → Json := coreObject commentMembers

/-- The core of an item, an issue or a pull request. -/
def coreItem : Json → Json
  | .obj fields =>
    if dictHas fields "pull_request" then .obj [(py "pull_request", .null)]
    else coreIssue (.obj fields)
  | item => item

/-- The core of a page. -/
def corePage (core : Json → Json) : Json → Json
  | .arr items => .arr (items.map core)
  | page => page

/-- The core of an error document. -/
def coreError : Json → Json := coreObject [("message", id), ("errors", id)]

/-! ## Members -/

/-- A member that is read is found, reduced to what is read of it. -/
lemma dictGet_readMembers {kept : List (String × (Json → Json))}
    (hnames : (kept.map (·.1)).Nodup) {name : String} {reduce : Json → Json}
    (h : (name, reduce) ∈ kept) (fields : List (PyStr × Json)) :
    dictGet (readMembers kept fields) name = (dictGet fields name).map reduce := by
  have hvalue : (name, (dictGet fields name).map reduce) ∈
      kept.map fun k => (k.1, (dictGet fields k.1).map k.2) := List.mem_map_of_mem h
  refine dictGet_dumpAll ?_ hvalue
  rw [List.map_map]
  exact hnames

/-- One that is read as it is. -/
lemma dictGet_readMembers_id {kept : List (String × (Json → Json))}
    (hnames : (kept.map (·.1)).Nodup) {name : String} (h : (name, id) ∈ kept)
    (fields : List (PyStr × Json)) :
    dictGet (readMembers kept fields) name = dictGet fields name := by
  rw [dictGet_readMembers hnames h, Option.map_id_fun, id]

lemma dictHas_iff {fields : List (PyStr × Json)} {name : String} :
    dictHas fields name = true ↔ ∃ f ∈ fields, f.1 = py name := by
  simp [dictHas]

/-- A member that is not read is not in the core. -/
lemma dictHas_readMembers_of_not_mem {kept : List (String × (Json → Json))} {name : String}
    (h : name ∉ kept.map (·.1)) (fields : List (PyStr × Json)) :
    dictHas (readMembers kept fields) name = false := by
  rw [← Bool.not_eq_true, dictHas_iff]
  rintro ⟨f, hf, hname⟩
  obtain ⟨v, hv, hkey, -⟩ := mem_dumpAll.mp hf
  obtain ⟨k, hk, rfl⟩ := List.mem_map.mp hv
  obtain rfl : k.1 = name := py_injective (hkey.symm.trans hname)
  exact h (List.mem_map_of_mem hk)

/-! ## Parts of an object -/

lemma labelName_coreLabel (label : Json) : labelName (coreLabel label) = labelName label := by
  cases label with
  | obj fields =>
    have hname := @dictGet_readMembers_id [("name", id)] (by simp) "name" (by simp) fields
    simp only [coreLabel, coreObject, labelName, hname]
  | _ => rfl

/-- The labels are iterated over as before, each reduced to its name. -/
lemma iterateOrEmpty_coreLabels (labels : Json) :
    (iterateOrEmpty (coreLabels labels)).map (List.filterMap labelName) =
      (iterateOrEmpty labels).map (List.filterMap labelName) := by
  cases labels with
  | arr items =>
    rw [coreLabels, iterateOrEmpty_arr, iterateOrEmpty_arr]
    show Except.ok _ = Except.ok _
    rw [List.filterMap_map]
    exact congrArg _ (List.filterMap_congr fun label _ => labelName_coreLabel label)
  | _ => rfl

lemma nodup_issueMembers : (issueMembers.map (·.1)).Nodup := by decide

lemma nodup_commentMembers : (commentMembers.map (·.1)).Nodup := by decide

lemma labelNames_core (fields : List (PyStr × Json)) :
    labelNames (readMembers issueMembers fields) = labelNames fields := by
  have hmap (labels : Json) : (do
      let items ← iterateOrEmpty labels
      return items.filterMap labelName : Except PyException (List PyStr)) =
        (iterateOrEmpty labels).map (List.filterMap labelName) := by
    cases iterateOrEmpty labels <;> rfl
  have hlabels := @dictGet_readMembers issueMembers nodup_issueMembers "labels" coreLabels
    (by simp [issueMembers]) fields
  rw [labelNames, labelNames, hlabels, hmap, hmap]
  cases dictGet fields "labels" with
  | none => rfl
  | some labels => exact iterateOrEmpty_coreLabels labels

/-- The author is looked up in what is read of him. -/
lemma login_of_coreUser {fields fields' : List (PyStr × Json)}
    (h : dictGet fields' "user" = (dictGet fields "user").map coreUser) :
    login fields' = login fields := by
  rw [login, login, h]
  cases dictGet fields "user" with
  | none => rfl
  | some user =>
    cases user with
    | obj members =>
      have hlogin := @dictGet_readMembers_id [("login", id)] (by simp) "login" (by simp) members
      simp only [Option.map_some, coreUser, coreObject, hlogin]
    | _ => rfl

/-! ## Projections -/

/-- **An issue is read from its core.** -/
lemma toIssue_coreIssue (rt : Runtime) (value : Json) :
    toIssue rt (coreIssue value) = toIssue rt value := by
  cases value with
  | obj fields =>
    have hget {name : String} (h : (name, id) ∈ issueMembers) :
        dictGet (readMembers issueMembers fields) name = dictGet fields name :=
      dictGet_readMembers_id nodup_issueMembers h fields
    have huser := @dictGet_readMembers issueMembers nodup_issueMembers "user" coreUser
      (by simp [issueMembers]) fields
    simp only [coreIssue, coreObject, toIssue, getItem, labelNames_core, login_of_coreUser huser,
      @hget "number" (by simp [issueMembers]), @hget "title" (by simp [issueMembers]),
      @hget "body" (by simp [issueMembers]), @hget "state" (by simp [issueMembers]),
      @hget "html_url" (by simp [issueMembers]), @hget "comments" (by simp [issueMembers]),
      @hget "created_at" (by simp [issueMembers]), @hget "updated_at" (by simp [issueMembers]),
      @hget "closed_at" (by simp [issueMembers])]
  | _ => rfl

/-- So is a comment. -/
lemma toComment_coreComment (rt : Runtime) (issueNumber : Option ℕ) (value : Json) :
    toComment rt issueNumber (coreComment value) = toComment rt issueNumber value := by
  cases value with
  | obj fields =>
    have hget {name : String} (h : (name, id) ∈ commentMembers) :
        dictGet (readMembers commentMembers fields) name = dictGet fields name :=
      dictGet_readMembers_id nodup_commentMembers h fields
    have huser := @dictGet_readMembers commentMembers nodup_commentMembers "user" coreUser
      (by simp [commentMembers]) fields
    simp only [coreComment, coreObject, toComment, getItem, login_of_coreUser huser,
      @hget "id" (by simp [commentMembers]), @hget "body" (by simp [commentMembers]),
      @hget "html_url" (by simp [commentMembers]), @hget "created_at" (by simp [commentMembers]),
      @hget "updated_at" (by simp [commentMembers])]
  | _ => rfl

/-! A pull request is recognised by its core, and any other item is read from it. -/

/-- An item that is no pull request has the core of an issue. -/
lemma coreItem_of_not_pullRequest {item : Json} (h : isPullRequest item = .ok false) :
    coreItem item = coreIssue item := by
  cases item with
  | obj fields =>
    have hmarked : dictHas fields "pull_request" = false := Except.ok.inj h
    rw [coreItem, hmarked]
    rfl
  | _ => rfl

lemma isPullRequest_coreItem (item : Json) :
    isPullRequest (coreItem item) = isPullRequest item := by
  cases item with
  | obj fields =>
    rw [coreItem, isPullRequest]
    split
    · next hmarked => rw [hmarked]; rfl
    · next hmarked =>
      rw [Bool.eq_false_of_not_eq_true hmarked]
      exact congrArg Except.ok (dictHas_readMembers_of_not_mem (by decide) fields)
  | _ => rfl

/-! ## Pages and errors -/

/-- A page is iterated over as before, each element reduced to its core. -/
lemma iterateOrEmpty_corePage {core : Json → Json} (hstr : ∀ s, core (.str s) = .str s)
    (page : Json) :
    iterateOrEmpty (corePage core page) = (iterateOrEmpty page).map (List.map core) := by
  -- the elements of what is no array are strings
  have hstrings {α : Type} (xs : List α) (f : α → PyStr) :
      (xs.map fun x => Json.str (f x)).map core = xs.map fun x => Json.str (f x) := by
    rw [List.map_map]
    exact List.map_congr_left fun x _ => hstr (f x)
  cases page with
  | arr items =>
    rw [corePage, iterateOrEmpty_arr, iterateOrEmpty_arr]
    rfl
  | obj fields =>
    show iterateOrEmpty (.obj fields) = _
    unfold iterateOrEmpty
    split
    · exact congrArg Except.ok (hstrings fields _).symm
    · rfl
  | str s =>
    show iterateOrEmpty (.str s) = _
    unfold iterateOrEmpty
    split
    · exact congrArg Except.ok (hstrings s _).symm
    · rfl
  | null => rfl
  | bool b => cases b <;> rfl
  | int n =>
    show iterateOrEmpty (.int n) = _
    unfold iterateOrEmpty
    split <;> rfl
  | float x =>
    show iterateOrEmpty (.float x) = _
    unfold iterateOrEmpty
    split <;> rfl

/-- The details of an error are read from its core. -/
lemma dictGet_coreError (fields : List (PyStr × Json)) {name : String}
    (h : name = "message" ∨ name = "errors") :
    dictGet (readMembers [("message", id), ("errors", id)] fields) name = dictGet fields name := by
  refine dictGet_readMembers_id (by simp) ?_ fields
  rcases h with rfl | rfl <;> simp

end IssuesApi
