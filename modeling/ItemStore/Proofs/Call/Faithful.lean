import ItemStore.Call.BatchGet
import ItemStore.Call.Query
import ItemStore.Call.Scan
import ItemStore.Call.Transaction
import ItemStore.Proofs.Expression.Carried

/-!
# Requests say what was described

Compiling the description of a call reads its paths, writes its expressions, puts them together and
compacts them.  At the end of all of that stands a request whose texts, with what is bound in the
place of their placeholders, are the conditions, updates and projections of the description
(`compile_faithful`).

Every request has a view of what it `carried`, and every description a list of the `sources` that
the texts come from, in the same order.
-/

namespace ItemStore

/-! ## What the requests carry -/

/-- What is carried by a request that has a projection and no values. -/
def Carried.ofProjection (projection : Option String) (names : Keyed String) : Carried :=
  ⟨[projection], ⟨names, .empty⟩⟩

/-- What is carried by a request that has a condition only. -/
def Carried.ofCondition (condition : Option String) (bindings : Bindings) : Carried :=
  ⟨[condition], bindings⟩

def GetItemRequest.carried (r : GetItemRequest) : Carried := .ofProjection r.projection r.names

def PutItemRequest.carried (r : PutItemRequest) : Carried := .ofCondition r.condition r.bindings

def UpdateItemRequest.carried (r : UpdateItemRequest) : Carried :=
  ⟨[r.update, r.condition], r.bindings⟩

def DeleteItemRequest.carried (r : DeleteItemRequest) : Carried :=
  .ofCondition r.condition r.bindings

def QueryRequest.carried (r : QueryRequest) : Carried :=
  ⟨[r.keyCondition, r.filter, r.projection], r.bindings⟩

def ScanRequest.carried (r : ScanRequest) : Carried := ⟨[r.filter, r.projection], r.bindings⟩

/-- Every table of a batch has bindings of its own. -/
def BatchGetRequest.carried (r : BatchGetRequest) : List Carried :=
  r.tables.values.map fun t => .ofProjection t.projection t.names

/-- Every action of a transaction has bindings of its own. -/
def TransactWriteItem.carried (i : TransactWriteItem) : List Carried :=
  i.check.toList.map (fun c => .ofCondition (some c.condition) c.bindings) ++
    i.put.toList.map (fun p => .ofCondition p.condition p.bindings) ++
    i.delete.toList.map (fun d => .ofCondition d.condition d.bindings) ++
    i.update.toList.map (fun u => ⟨[some u.update, u.condition], u.bindings⟩)

def TransactGetItem.carried (i : TransactGetItem) : Carried :=
  .ofProjection i.get.projection i.get.names

namespace Call

/-! ## What the descriptions ask for -/

def Get.sources (g : Get) : List Source := [.projection g.projection]

def Put.sources (p : Put) : List Source := [.conditions p.conditions]

def Update.sources (u : Update) : List Source :=
  [.update u.updates.actions, .conditions u.conditions]

def Delete.sources (d : Delete) : List Source := [.conditions d.conditions]

def Check.sources (c : Check) : List Source := [.conditions (c.condition :: c.more)]

def Query.sources (q : Query) : List Source :=
  [.conditions [q.keyCondition], .conditions q.filters, .projection q.projection]

def Scan.sources (s : Scan) : List Source := [.conditions s.filters, .projection s.projection]

/-- Without keys there is no table to read from. -/
def BatchGet.sources (b : BatchGet) : List (List Source) :=
  if b.keys.isEmpty then [] else [[.projection b.projection]]

def Action.sources : Action → List Source
  | .check c => c.sources
  | .put p => p.sources
  | .delete d => d.sources
  | .update u => u.sources

/-! ## Bundles -/

/-- What guards a write is the one text of its bundle. -/
theorem guardBundle_faithful {cs : List (Condition String)} {b : Bundle}
    (h : guardBundle cs = .ok b) :
    (Carried.ofCondition (b.text? .condition) b.bindings).Faithful [.conditions cs] := by
  obtain ⟨b', hb, h⟩ := bind_eq_ok.1 h
  cases h
  obtain ⟨p, hp, hholds⟩ := Bundle.holds_empty.withCondition rfl hb
  refine hholds.faithful [.condition] (fun slot => ?_) (.cons ?_ .nil)
  · cases slot <;> simp
  · simpa using hp

/-- A projection has names only, so its bindings lose nothing when the values are dropped. -/
theorem projectionBundle_faithful {paths : List String} {b : Bundle}
    (h : projectionBundle paths = .ok b) :
    (Carried.ofProjection (b.text? .projection) b.bindings.names).Faithful
      [.projection paths] := by
  obtain ⟨b', hb, h⟩ := bind_eq_ok.1 h
  cases h
  obtain ⟨p, hp, hholds⟩ := Bundle.holds_empty.withProjection rfl hb
  have hempty : b'.compact.bindings.values = .empty := by
    refine hholds.values_eq_empty fun slot q hq => ?_
    cases slot <;> simp at hq
    exact Source.nominal_projection (hq ▸ hp)
  rw [Carried.ofProjection, ← hempty]
  refine hholds.faithful [.projection] (fun slot => ?_) (.cons ?_ .nil)
  · cases slot <;> simp
  · simpa using hp

/-- The update and its condition are written with one scribe after the other, and share their
bindings. -/
theorem Update.bundle_faithful {u : Update} {b : Bundle} (h : u.bundle = .ok b) :
    Carried.Faithful ⟨[b.text? .update, b.text? .condition], b.bindings⟩ u.sources := by
  obtain ⟨b₁, h₁, h⟩ := bind_eq_ok.1 h
  obtain ⟨b₂, h₂, h⟩ := bind_eq_ok.1 h
  cases h
  obtain ⟨p, hp, hholds⟩ := Bundle.holds_empty.withUpdate rfl h₁
  obtain ⟨q, hq, hholds⟩ := hholds.withCondition (by simp) h₂
  refine hholds.faithful [.update, .condition] (fun slot => ?_)
    (.cons ?_ (.cons ?_ .nil))
  · cases slot <;> simp
  · simpa using hp
  · simpa using hq

/-- The three texts of a query share their bindings. -/
theorem Query.bundle_faithful {q : Query} {b : Bundle} (h : q.bundle = .ok b) :
    Carried.Faithful ⟨[b.text? .keyCondition, b.text? .filter, b.text? .projection], b.bindings⟩
      q.sources := by
  obtain ⟨b₁, h₁, h⟩ := bind_eq_ok.1 h
  obtain ⟨b₂, h₂, h⟩ := bind_eq_ok.1 h
  obtain ⟨b₃, h₃, h⟩ := bind_eq_ok.1 h
  cases h
  have h₁ : Bundle.empty.withCondition .keyCondition (Condition.chain [q.keyCondition]) = .ok b₁ :=
    h₁
  obtain ⟨k, hk, hholds⟩ := Bundle.holds_empty.withCondition rfl h₁
  obtain ⟨f, hf, hholds⟩ := hholds.withCondition (by simp) h₂
  obtain ⟨p, hp, hholds⟩ := hholds.withProjection (by simp) h₃
  refine hholds.faithful [.keyCondition, .filter, .projection] (fun slot => ?_)
    (.cons ?_ (.cons ?_ (.cons ?_ .nil)))
  · cases slot <;> simp
  · simpa using hk
  · simpa using hf
  · simpa using hp

theorem Scan.bundle_faithful {s : Scan} {b : Bundle} (h : s.bundle = .ok b) :
    Carried.Faithful ⟨[b.text? .filter, b.text? .projection], b.bindings⟩ s.sources := by
  obtain ⟨b₁, h₁, h⟩ := bind_eq_ok.1 h
  obtain ⟨b₂, h₂, h⟩ := bind_eq_ok.1 h
  cases h
  obtain ⟨f, hf, hholds⟩ := Bundle.holds_empty.withCondition rfl h₁
  obtain ⟨p, hp, hholds⟩ := hholds.withProjection (by simp) h₂
  refine hholds.faithful [.filter, .projection] (fun slot => ?_)
    (.cons ?_ (.cons ?_ .nil))
  · cases slot <;> simp
  · simpa using hf
  · simpa using hp

/-! ## Single calls -/

/-- A read carries its projection. -/
theorem Get.faithful {g : Get} {r : GetItemRequest} (h : g.compile = .ok r) :
    r.carried.Faithful g.sources := by
  obtain ⟨-, -, h⟩ := bind_eq_ok.1 h
  obtain ⟨b, hb, h⟩ := bind_eq_ok.1 h
  cases h
  exact projectionBundle_faithful hb

/-- A put carries its conditions, and nothing else that has a text. -/
theorem Put.faithful {p : Put} {r : PutItemRequest} (h : p.compile = .ok r) :
    r.carried.Faithful p.sources := by
  obtain ⟨-, -, h⟩ := bind_eq_ok.1 h
  obtain ⟨b, hb, h⟩ := bind_eq_ok.1 h
  cases h
  exact guardBundle_faithful hb

theorem Delete.faithful {d : Delete} {r : DeleteItemRequest} (h : d.compile = .ok r) :
    r.carried.Faithful d.sources := by
  obtain ⟨-, -, h⟩ := bind_eq_ok.1 h
  obtain ⟨b, hb, h⟩ := bind_eq_ok.1 h
  cases h
  exact guardBundle_faithful hb

/-- An update has actions when it is compiled. -/
theorem Update.actions_ne_nil {u : Update} {r : UpdateItemRequest} (h : u.compile = .ok r) :
    u.updates.actions ≠ [] := by
  obtain ⟨-, -, h⟩ := bind_eq_ok.1 h
  intro hnil
  rw [if_pos (by simp [Updates.isEmpty, hnil])] at h
  cases h

/-- An update carries its actions and its conditions. -/
theorem Update.faithful {u : Update} {r : UpdateItemRequest} (h : u.compile = .ok r) :
    r.carried.Faithful u.sources := by
  have hne := Update.actions_ne_nil h
  obtain ⟨-, -, h⟩ := bind_eq_ok.1 h
  rw [if_neg (by simpa [Updates.isEmpty] using hne)] at h
  obtain ⟨-, -, h⟩ := bind_eq_ok.1 h
  obtain ⟨b, hb, h⟩ := bind_eq_ok.1 h
  cases h
  exact Update.bundle_faithful hb

/-- A query carries its key condition, its filters and its projection, each in its own field. -/
theorem Query.faithful {q : Query} {r : QueryRequest} (h : q.compile = .ok r) :
    r.carried.Faithful q.sources := by
  obtain ⟨b, hb, h⟩ := bind_eq_ok.1 h
  have hfaithful := Query.bundle_faithful hb
  cases hkey : b.text? .keyCondition with
  | none =>
    rw [hkey] at h
    cases h
  | some key =>
    rw [hkey] at h hfaithful
    cases h
    exact hfaithful

/-- A scan carries its filters and its projection. -/
theorem Scan.faithful {s : Scan} {r : ScanRequest} (h : s.compile = .ok r) :
    r.carried.Faithful s.sources := by
  obtain ⟨b, hb, h⟩ := bind_eq_ok.1 h
  cases h
  exact Scan.bundle_faithful hb

/-! ## Batches and transactions -/

/-- A batch carries its projection once, with its only table, and not at all if there are no keys.
-/
theorem BatchGet.faithful {b : BatchGet} {r : BatchGetRequest} (h : b.compile = .ok r) :
    List.Forall₂ Carried.Faithful r.carried b.sources := by
  obtain ⟨-, -, h⟩ := bind_eq_ok.1 h
  rw [BatchGet.sources]
  cases hkeys : b.keys.isEmpty with
  | true =>
    rw [hkeys] at h
    cases h
    exact .nil
  | false =>
    rw [hkeys] at h
    obtain ⟨t, ht, h⟩ := bind_eq_ok.1 h
    cases h
    obtain ⟨bundle, hbundle, ht⟩ := bind_eq_ok.1 ht
    cases ht
    exact .cons (projectionBundle_faithful hbundle) .nil

theorem Get.transact_faithful {g : Get} {i : TransactGetItem}
    (h : (do return { get := ← g.inTransaction } : Except StoreError TransactGetItem) = .ok i) :
    i.carried.Faithful g.sources := by
  obtain ⟨t, ht, h⟩ := bind_eq_ok.1 h
  obtain ⟨r, hr, ht⟩ := bind_eq_ok.1 ht
  cases ht
  cases h
  exact Get.faithful hr

/-- Each read of a transaction carries what it asks for, with bindings of its own. -/
theorem TransactRead.faithful {t : TransactRead} {r : TransactGetRequest}
    (h : t.compile = .ok r) :
    List.Forall₂ (fun i g => i.carried.Faithful g.sources) r.items t.reads := by
  obtain ⟨-, -, h⟩ := bind_eq_ok.1 h
  obtain ⟨items, hitems, h⟩ := bind_eq_ok.1 h
  cases h
  exact (mapM_eq_ok.1 hitems).flip.imp fun _ _ hi => Get.transact_faithful hi

/-- The condition of a check is there although it is not optional. -/
theorem Check.transact_faithful {c : Check} {t : TransactCheck} (h : c.inTransaction = .ok t) :
    (Carried.ofCondition (some t.condition) t.bindings).Faithful c.sources := by
  obtain ⟨-, -, h⟩ := bind_eq_ok.1 h
  obtain ⟨b, hb, h⟩ := bind_eq_ok.1 h
  have hfaithful := guardBundle_faithful hb
  cases hcondition : b.text? .condition with
  | none =>
    rw [hcondition] at h
    cases h
  | some condition =>
    rw [hcondition] at h hfaithful
    cases h
    exact hfaithful

/-- An update with actions has a text. -/
theorem exists_text_of_renders {bindings : Bindings} {text : Option String}
    {actions : List (UpdateAction String)} (h : Renders bindings text (.update actions))
    (hne : actions ≠ []) : ∃ t, text = some t := by
  obtain ⟨p, hp, hrel⟩ := h
  cases hp with
  | noActions => exact absurd rfl hne
  | update =>
    cases hrel with
    | some _ => exact ⟨_, rfl⟩

/-- An update carries the same in a transaction as on its own. -/
theorem Update.transact_faithful {u : Update} {t : TransactUpdate}
    (h : u.inTransaction = .ok t) :
    Carried.Faithful ⟨[some t.update, t.condition], t.bindings⟩ u.sources := by
  obtain ⟨r, hr, h⟩ := bind_eq_ok.1 h
  cases h
  have hfaithful := Update.faithful hr
  obtain ⟨hupdate, -⟩ := List.forall₂_cons.1 hfaithful.renders
  obtain ⟨text, htext⟩ := exists_text_of_renders hupdate (Update.actions_ne_nil hr)
  rw [UpdateItemRequest.carried, htext] at hfaithful
  rw [htext]
  exact hfaithful

/-- An item of a transaction carries what its action asks for. -/
theorem Action.faithful {a : Action} {i : TransactWriteItem} (h : a.request = .ok i) :
    ∃ c, i.carried = [c] ∧ c.Faithful a.sources := by
  cases a with
  | check c =>
    obtain ⟨t, ht, h⟩ := bind_eq_ok.1 h
    cases h
    exact ⟨_, rfl, Check.transact_faithful ht⟩
  | put p =>
    obtain ⟨t, ht, h⟩ := bind_eq_ok.1 h
    obtain ⟨r, hr, ht⟩ := bind_eq_ok.1 ht
    cases ht
    cases h
    exact ⟨_, rfl, Put.faithful hr⟩
  | delete d =>
    obtain ⟨t, ht, h⟩ := bind_eq_ok.1 h
    obtain ⟨r, hr, ht⟩ := bind_eq_ok.1 ht
    cases ht
    cases h
    exact ⟨_, rfl, Delete.faithful hr⟩
  | update u =>
    obtain ⟨t, ht, h⟩ := bind_eq_ok.1 h
    cases h
    exact ⟨_, rfl, Update.transact_faithful ht⟩

/-- Each action of a transaction carries what it asks for, in the one field that it has. -/
theorem TransactWrite.faithful {t : TransactWrite} {r : TransactWriteRequest}
    (h : t.compile = .ok r) :
    List.Forall₂ (fun i a => ∃ c, i.carried = [c] ∧ c.Faithful a.sources) r.items t.actions := by
  obtain ⟨-, -, h⟩ := bind_eq_ok.1 h
  obtain ⟨items, hitems, h⟩ := bind_eq_ok.1 h
  cases h
  exact (mapM_eq_ok.1 hitems).flip.imp fun _ _ hi => Action.faithful hi

end Call

/-! ## Every call -/

/-- **Every request says what its call was described with**, text by text, name by name and, up to
equality of values, value by value.

With what is bound in the place of its placeholders, every text is the phrase of the conditions,
actions or paths that it was described with, whose paths are derived from their texts and which are
otherwise as they were.  Every placeholder in a request has one entry, every entry is used, and no
name or value has two entries, in a single request as in each table of a batch and each item of a
transaction. -/
theorem compile_faithful :
    (∀ (g : Call.Get) r, g.compile = .ok r → r.carried.Faithful g.sources) ∧
    (∀ (p : Call.Put) r, p.compile = .ok r → r.carried.Faithful p.sources) ∧
    (∀ (u : Call.Update) r, u.compile = .ok r → r.carried.Faithful u.sources) ∧
    (∀ (d : Call.Delete) r, d.compile = .ok r → r.carried.Faithful d.sources) ∧
    (∀ (q : Call.Query) r, q.compile = .ok r → r.carried.Faithful q.sources) ∧
    (∀ (s : Call.Scan) r, s.compile = .ok r → r.carried.Faithful s.sources) ∧
    (∀ (b : Call.BatchGet) r, b.compile = .ok r →
      List.Forall₂ Carried.Faithful r.carried b.sources) ∧
    (∀ (t : Call.TransactRead) r, t.compile = .ok r →
      List.Forall₂ (fun i g => i.carried.Faithful g.sources) r.items t.reads) ∧
    (∀ (t : Call.TransactWrite) r, t.compile = .ok r →
      List.Forall₂ (fun i a => ∃ c, i.carried = [c] ∧ c.Faithful a.sources) r.items t.actions) :=
  ⟨fun _ _ => Call.Get.faithful, fun _ _ => Call.Put.faithful, fun _ _ => Call.Update.faithful,
    fun _ _ => Call.Delete.faithful, fun _ _ => Call.Query.faithful, fun _ _ => Call.Scan.faithful,
    fun _ _ => Call.BatchGet.faithful, fun _ _ => Call.TransactRead.faithful,
    fun _ _ => Call.TransactWrite.faithful⟩

/-- A query whose three expressions share a name and a value. -/
def sharingQuery : Call.Query where
  table := "t"
  keyCondition := .compare (.path "id") .eq (.stringSet ["u", "w"])
  filters := [.absent "n", .compare (.path "t[2].id") .ne (.stringSet ["w", "u"])]
  projection := ["t.n", "id", "t.n"]

/-- A transaction whose update shares a name and a value with its condition. -/
def sharingWrite : Call.TransactWrite where
  actions := [.update {
      table := "t"
      key := .singleton "id" (.string "a")
      updates := ⟨[.remove "x", .increment "n" (.number "1")],
        List.forall_mem_cons.2 ⟨rfl, List.forall_mem_cons.2 ⟨rfl, by simp⟩⟩⟩
      conditions := [.compare (.path "n") .lt (.number "1")] },
    .check { table := "t", key := .singleton "id" (.string "b"), condition := .present "id" }]

example : (sharingQuery.compile.toOption.map fun r => r.carried.texts) =
    some [some "#n0=:v0", some "attribute_not_exists(#n1) AND #n2[2].#n0<>:v0",
      some "#n2.#n1, #n0"] := by
  decide +kernel

example : (sharingWrite.compile.toOption.map fun r =>
      r.items.flatMap fun i => i.carried.map Carried.texts) =
    some [[some "SET #n0=#n0+:v0 REMOVE #n1", some "#n0<:v0"],
      [some "attribute_exists(#n0)"]] := by
  decide +kernel

theorem compile_faithful_sharing :
    (∃ r, sharingQuery.compile = .ok r ∧ r.carried.Faithful sharingQuery.sources) ∧
      ∃ r, sharingWrite.compile = .ok r ∧ List.Forall₂
        (fun i a => ∃ c, i.carried = [c] ∧ c.Faithful a.sources) r.items sharingWrite.actions := by
  obtain ⟨-, -, -, -, hquery, -, -, -, hwrite⟩ := compile_faithful
  obtain ⟨q, hq⟩ := exists_eq_ok (x := sharingQuery.compile) (by decide +kernel)
  obtain ⟨w, hw⟩ := exists_eq_ok (x := sharingWrite.compile) (by decide +kernel)
  exact ⟨⟨q, hq, hquery sharingQuery q hq⟩, w, hw, hwrite sharingWrite w hw⟩

end ItemStore
