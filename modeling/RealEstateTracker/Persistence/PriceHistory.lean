import Mathlib.Data.List.Destutter
import Mathlib.Data.List.ReduceOption
import RealEstateTracker.Persistence.PropertyRoundTrip

/-!
# Price history

The repository compares a new price with the stored one, which a column has
rounded and which is missing once the price was unknown.  The history is the
sequence of price changes when no column rounds a price and no price returns
after unknown ones.
-/

namespace RealEstateTracker.Persistence

open Foundation Domain PropertyRepository

/-! ## Equal prices -/

def SamePrice (a b : Money) : Prop :=
  a.amount.eq b.amount = .ok true ∧ a.currency = b.currency

instance : DecidableRel SamePrice := fun a b => by
  unfold SamePrice
  infer_instance

theorem Money.isNaN_eq_false (price : Money) : price.amount.isNaN = false :=
  Application.isNaN_of_ordered price.notNegative

theorem SamePrice.refl (a : Money) : SamePrice a a :=
  ⟨Decimal.eq_self (Money.isNaN_eq_false a), rfl⟩

theorem SamePrice.symm {a b : Money} (h : SamePrice a b) : SamePrice b a :=
  ⟨Decimal.eq_symm h.1, h.2.symm⟩

theorem SamePrice.trans {a b c : Money} (h : SamePrice a b) (h' : SamePrice b c) :
    SamePrice a c :=
  ⟨Decimal.eq_trans h.1 h'.1, h.2.trans h'.2⟩

/-! ## What should be recorded -/

/-- The known prices, where equal ones in a row are one. -/
def changes (prices : List (Option Money)) : List Money :=
  prices.reduceOption.destutter fun a b => ¬SamePrice a b

/-- After unknown prices the next known one is not the last one again. -/
def NeverReturns (prices : List (Option Money)) : Prop :=
  ∀ a rest, some a :: none :: rest <:+ prices →
    ∀ b ∈ rest.reduceOption.head?, ¬SamePrice a b

section Columns

variable [runtime : PersistenceRuntime]

/-- What a column makes of an amount depends on its value only. -/
def RoundsValues : Prop :=
  ∀ places x y, Decimal.eq x y = .ok true →
    (runtime.numericColumn places x).eq (runtime.numericColumn places y) = .ok true

/-! ## Sequences of calls -/

structure AddCall where
  prop : Property
  now : DateTime
  stamp : Stamp

def add (db : Store) (call : AddCall) : Except PyError Store := do
  let row ← toModel call.prop call.now
  return applyAll (addWrites call.prop row call.now call.stamp db) db

def addAll (calls : List AddCall) (db : Store) : Except PyError Store :=
  calls.foldlM add db

def history (id : PropertyId) (db : Store) : List (Decimal × String) :=
  (db.prices.filter (·.propertyId = id)).map fun row =>
    (runtime.numericColumn 2 row.priceAmount, row.priceCurrency)

/-- The history of a property is the sequence of the changes of its price. -/
def RecordsChanges (id : PropertyId) (db : Store) (prices : List (Option Money)) :
    Prop :=
  List.Forall₂ (fun entry price => entry.1.eq price.amount = .ok true ∧
    entry.2 = price.currency.value) (history id db) (changes prices)

/-! ## What is recorded -/

/-- The stored price, which its column has rounded, is another one or is missing. -/
def Differs (stored : Option Money) (price : Money) : Prop :=
  ∀ a ∈ stored, ¬((runtime.numericColumn 2 a.amount).eq price.amount = .ok true ∧
    a.currency = price.currency)

instance (stored : Option Money) (price : Money) :
    Decidable (Differs stored price) := by
  unfold Differs
  infer_instance

def recorded : Option Money → List (Option Money) → List Money
  | _, [] => []
  | _, none :: rest => recorded none rest
  | stored, some price :: rest =>
      if Differs stored price then price :: recorded (some price) rest
      else recorded (some price) rest

def Holds (id : PropertyId) (db : Store) (stored : Option Money) : Prop :=
  match PropertyRepository.find id db with
  | none => stored = none
  | some row =>
      row.priceAmount = stored.map (runtime.numericColumn 2 ·.amount) ∧
        row.priceCurrency = stored.map (·.currency.value)

theorem priceChanged_iff {id : PropertyId} {db : Store} {stored : Option Money}
    (h : Holds id db stored) (price : Money) :
    priceChanged (PropertyRepository.find id db) price = true ↔
      Differs stored price := by
  unfold Holds at h
  unfold priceChanged
  cases hfind : PropertyRepository.find id db with
  | none =>
      rw [hfind] at h
      obtain rfl : stored = none := h
      simp [Differs]
  | some row =>
      rw [hfind] at h
      obtain ⟨hamount, hcurrency⟩ := h
      dsimp only
      rw [hamount, hcurrency]
      cases stored with
      | none => simp [Differs]
      | some a =>
          have hcurrency : a.currency = price.currency := by
            cases a.currency
            cases price.currency
            rfl
          have hequal : ((runtime.numericColumn 2 a.amount).eq
              price.amount).toOption.getD false = true ↔
                (runtime.numericColumn 2 a.amount).eq price.amount = .ok true := by
            cases (runtime.numericColumn 2 a.amount).eq price.amount <;>
              simp [Except.toOption]
          simp only [Differs, Option.mem_def, Option.some.injEq, forall_eq',
            Option.map_some, hcurrency, bne_self_eq_false, Bool.or_false,
            Bool.not_eq_true', ← Bool.not_eq_true, hequal, and_true]

omit runtime in
theorem prices_rowWrite (existing : Option PropertyRow) (row : PropertyRow)
    (db : Store) : (Database.apply (rowWrite existing row) db).prices = db.prices := by
  cases existing <;> rfl

theorem add_eq_ok (hrounds : RoundsOnce) {db db' : Store} {call : AddCall}
    {stored : Option Money} (hstored : Holds call.prop.id db stored)
    (h : add db call = .ok db') :
    Holds call.prop.id db' call.prop.price ∧
      history call.prop.id db' = history call.prop.id db ++
        (recorded stored [call.prop.price]).map fun price =>
          (runtime.numericColumn 2 price.amount, price.currency.value) := by
  obtain ⟨row, hrow, h⟩ := bind_eq_ok.mp h
  obtain rfl := pure_eq_ok.mp h
  have hcolumns : row.priceAmount = call.prop.price.map (·.amount) ∧
      row.priceCurrency = call.prop.price.map (·.currency.value) := by
    obtain ⟨value, -, hrow⟩ := bind_eq_ok.mp hrow
    rw [← pure_eq_ok.mp hrow]
    exact ⟨rfl, rfl⟩
  constructor
  · obtain ⟨firstSeenAt, hfind⟩ := @find_added _ hrounds call.prop call.now row
      (id_toModel hrow) call.stamp db
    rw [Holds, hfind]
    simp only [readRow, hcolumns.1, hcolumns.2, Option.map_map, and_true]
    rfl
  · have hprices : (applyAll (addWrites call.prop row call.now call.stamp db)
        db).prices = db.prices ++
          (call.prop.price.toList.filter (Differs stored ·)).map fun price =>
            ⟨Uuid.drawn call.stamp 0, call.prop.id, price.amount,
              price.currency.value, call.now⟩ := by
      rw [addWrites, applyAll_cons, priceWrites]
      cases hprice : call.prop.price with
      | none => simp [applyAll_nil, prices_rowWrite]
      | some price =>
          by_cases hdiffers : Differs stored price
          · simp only [(priceChanged_iff hstored price).mpr hdiffers, if_true,
              Option.toList_some, List.filter_singleton, hdiffers, decide_true]
            exact congrArg (· ++ [_]) (prices_rowWrite _ row db)
          · have hsame := (priceChanged_iff hstored price).not.mpr hdiffers
            simp [hsame, hdiffers, applyAll_nil, prices_rowWrite]
    rw [history, hprices, List.filter_append, List.map_append, ← history]
    cases hprice : call.prop.price with
    | none => simp [recorded]
    | some price =>
        by_cases hdiffers : Differs stored price
        · simp [recorded, hdiffers]
        · simp [recorded, hdiffers]

theorem history_addAll (hrounds : RoundsOnce) {id : PropertyId}
    {calls : List AddCall} (hid : ∀ call ∈ calls, call.prop.id = id)
    {db db' : Store} {stored : Option Money} (hstored : Holds id db stored)
    (h : addAll calls db = .ok db') :
    history id db' = history id db ++
      (recorded stored (calls.map (·.prop.price))).map fun price =>
        (runtime.numericColumn 2 price.amount, price.currency.value) := by
  induction calls generalizing db stored with
  | nil =>
      obtain rfl := pure_eq_ok.mp h
      simp [recorded]
  | cons call calls ih =>
      obtain ⟨rfl, hids⟩ := List.forall_mem_cons.mp hid
      rw [addAll, List.foldlM_cons] at h
      obtain ⟨middle, hadd, h⟩ := bind_eq_ok.mp h
      obtain ⟨hholds, hhistory⟩ := add_eq_ok hrounds hstored hadd
      rw [ih hids hholds h, hhistory, List.append_assoc, ← List.map_append]
      congr 2
      rw [List.map_cons]
      cases call.prop.price with
      | none => simp [recorded]
      | some price =>
          by_cases hdiffers : Differs stored price
          · simp [recorded, hdiffers]
          · simp [recorded, hdiffers]

/-! ## When the two agree -/

def KeptPrice (price : Money) : Prop := Kept 2 price.amount

theorem KeptPrice.congr (hvalues : RoundsValues) {a b : Money} (h : SamePrice a b)
    (hkept : KeptPrice a) : KeptPrice b :=
  Decimal.eq_trans (Decimal.eq_symm (hvalues 2 _ _ h.1))
    (Decimal.eq_trans hkept h.1)

theorem KeptPrice.differs_iff {a price : Money} (hkept : KeptPrice a) :
    Differs (some a) price ↔ ¬SamePrice a price := by
  have hequal : (runtime.numericColumn 2 a.amount).eq price.amount = .ok true ↔
      a.amount.eq price.amount = .ok true :=
    ⟨Decimal.eq_trans (Decimal.eq_symm hkept), Decimal.eq_trans hkept⟩
  simp only [Differs, SamePrice, Option.mem_def, Option.some.injEq, forall_eq',
    hequal]

def ReadAs (rows expected : List Money) : Prop :=
  List.Forall₂ (fun row price =>
    (runtime.numericColumn 2 row.amount).eq price.amount = .ok true ∧
      row.currency = price.currency) rows expected

theorem readAs_cons {price : Money} {rows expected : List Money} :
    ReadAs (price :: rows) (price :: expected) ↔
      KeptPrice price ∧ ReadAs rows expected := by
  simp [ReadAs, KeptPrice, Kept]

omit runtime in
def changesAfter : Option Money → List (Option Money) → List Money
  | _, [] => []
  | last, none :: rest => changesAfter last rest
  | none, some price :: rest => price :: changesAfter (some price) rest
  | some a, some price :: rest =>
      if SamePrice a price then changesAfter (some a) rest
      else price :: changesAfter (some price) rest

omit runtime in
theorem cons_changesAfter (a : Money) (prices : List (Option Money)) :
    a :: changesAfter (some a) prices =
      prices.reduceOption.destutter' (fun a b => ¬SamePrice a b) a := by
  induction prices generalizing a with
  | nil => rfl
  | cons price rest ih =>
      cases price with
      | none => exact ih a
      | some price =>
          rw [List.reduceOption_cons_of_some, changesAfter]
          by_cases hsame : SamePrice a price
          · rw [if_pos hsame, ih, List.destutter'_cons_neg _ (not_not.mpr hsame)]
          · rw [if_neg hsame, ih, List.destutter'_cons_pos _ hsame]

omit runtime in
theorem changesAfter_none (prices : List (Option Money)) :
    changesAfter none prices = changes prices := by
  induction prices with
  | nil => rfl
  | cons price rest ih =>
      cases price with
      | none => exact ih
      | some price =>
          rw [changes, List.reduceOption_cons_of_some, List.destutter_cons',
            ← cons_changesAfter, changesAfter]

omit runtime in
theorem not_samePrice_of_head? {a price : Money} {prices : List (Option Money)}
    (h : price ∈ (changesAfter (some a) prices).head?) : ¬SamePrice a price := by
  induction prices with
  | nil => simp [changesAfter] at h
  | cons first rest ih =>
      cases first with
      | none => exact ih h
      | some first =>
          rw [changesAfter] at h
          by_cases hsame : SamePrice a first
          · rw [if_pos hsame] at h
            exact ih h
          · rw [if_neg hsame] at h
            obtain rfl := Option.some.inj h
            exact hsame

omit runtime in
/-- No known price returns, where the last known price may precede unknown ones. -/
def NoneReturns (stored last : Option Money) (prices : List (Option Money)) : Prop :=
  match stored with
  | some a => NeverReturns (some a :: prices)
  | none => (∀ a ∈ last, ∀ b ∈ prices.reduceOption.head?, ¬SamePrice a b) ∧
      NeverReturns prices

omit runtime in
theorem neverReturns_some_none {a : Money} {prices : List (Option Money)} :
    NeverReturns (some a :: none :: prices) ↔
      (∀ b ∈ prices.reduceOption.head?, ¬SamePrice a b) ∧ NeverReturns prices := by
  simp only [NeverReturns, List.suffix_cons_iff]
  constructor
  · intro h
    refine ⟨h a prices (.inl rfl), fun b rest hsuffix => h b rest ?_⟩
    exact .inr (.inr hsuffix)
  · rintro ⟨hhead, hrest⟩ b rest (heq | heq | hsuffix)
    · simp only [List.cons.injEq, Option.some.injEq, true_and] at heq
      obtain ⟨rfl, rfl⟩ := heq
      exact hhead
    · simp at heq
    · exact hrest b rest hsuffix

omit runtime in
theorem neverReturns_some_some {a b : Money} {prices : List (Option Money)} :
    NeverReturns (some a :: some b :: prices) ↔ NeverReturns (some b :: prices) := by
  simp only [NeverReturns]
  refine forall₂_congr fun c rest => imp_congr_left ?_
  rw [List.suffix_cons_iff]
  simp

omit runtime in
theorem neverReturns_none {prices : List (Option Money)} :
    NeverReturns (none :: prices) ↔ NeverReturns prices := by
  simp only [NeverReturns]
  refine forall₂_congr fun c rest => imp_congr_left ?_
  rw [List.suffix_cons_iff]
  simp

/--
Until now the column has kept every price, and the stored price is the last
known one unless it is missing.
-/
structure Recorded (stored last : Option Money) : Prop where
  kept : ∀ a ∈ last, KeptPrice a
  same : ∀ a ∈ stored, ∃ b ∈ last, SamePrice b a

omit runtime in
theorem noneReturns_none_none {prices : List (Option Money)} :
    NoneReturns none none prices ↔ NeverReturns prices := by
  simp [NoneReturns]

omit runtime in
theorem noneReturns_none_iff {stored last : Option Money}
    {prices : List (Option Money)}
    (hsame : ∀ a ∈ stored, ∃ b ∈ last, SamePrice b a) :
    NoneReturns stored last (none :: prices) ↔ NoneReturns none last prices := by
  cases stored with
  | none =>
      simp only [NoneReturns, neverReturns_none]
      rfl
  | some a =>
      obtain ⟨b, rfl, hab⟩ := hsame a rfl
      simp only [NoneReturns, neverReturns_some_none, Option.mem_def,
        Option.some.injEq, forall_eq']
      refine and_congr_left fun _ => forall₂_congr fun c _ => not_congr ?_
      exact ⟨hab.trans, hab.symm.trans⟩

theorem not_readAs_of_same {b price : Money} (hkept : KeptPrice price)
    (hsame : SamePrice b price) {rows : List Money} {prices : List (Option Money)} :
    ¬ReadAs (price :: rows) (changesAfter (some b) prices) := by
  intro h
  cases hchanges : changesAfter (some b) prices with
  | nil =>
      rw [hchanges] at h
      cases h
  | cons next others =>
      rw [hchanges] at h
      obtain ⟨⟨hamount, hcurrency⟩, -⟩ := List.forall₂_cons.mp h
      have hnext : SamePrice price next :=
        ⟨Decimal.eq_trans (Decimal.eq_symm hkept) hamount, hcurrency⟩
      have hhead : next ∈ (changesAfter (some b) prices).head? := by
        rw [hchanges]
        rfl
      exact not_samePrice_of_head? hhead (hsame.trans hnext)

theorem readAs_recorded_cons {price : Money} {rest : List (Option Money)}
    (ih : KeptPrice price →
      (ReadAs (recorded (some price) rest) (changesAfter (some price) rest) ↔
        (∀ later ∈ rest.reduceOption, KeptPrice later) ∧
          NeverReturns (some price :: rest))) :
    ReadAs (price :: recorded (some price) rest)
        (price :: changesAfter (some price) rest) ↔
      (∀ later ∈ (some price :: rest).reduceOption, KeptPrice later) ∧
        NeverReturns (some price :: rest) := by
  rw [readAs_cons, List.reduceOption_cons_of_some, List.forall_mem_cons, and_assoc]
  exact and_congr_right ih

theorem readAs_recorded_iff (hvalues : RoundsValues) {stored last : Option Money}
    (h : Recorded stored last) (prices : List (Option Money)) :
    ReadAs (recorded stored prices) (changesAfter last prices) ↔
      (∀ price ∈ prices.reduceOption, KeptPrice price) ∧
        NoneReturns stored last prices := by
  induction prices generalizing stored last with
  | nil =>
      have hnone : NoneReturns stored last [] := by
        cases stored <;> simp [NoneReturns, NeverReturns, List.suffix_cons_iff]
      simpa [recorded, changesAfter, ReadAs] using hnone
  | cons price rest ih =>
      cases price with
      | none =>
          have hrecorded : Recorded none last := ⟨h.kept, by simp⟩
          rw [noneReturns_none_iff h.same]
          exact ih hrecorded
      | some price =>
          have hrecorded : KeptPrice price →
              Recorded (some price) (some price) := fun hkept =>
            ⟨by simpa using hkept, by simpa using SamePrice.refl price⟩
          have hcons := readAs_recorded_cons fun hkept => ih (hrecorded hkept)
          cases stored with
          | some a =>
              obtain ⟨b, rfl, hba⟩ := h.same a rfl
              have hb : KeptPrice b := h.kept b rfl
              have hdiffers : Differs (some a) price ↔ ¬SamePrice a price :=
                (hb.congr hvalues hba).differs_iff
              rw [NoneReturns, neverReturns_some_some, changesAfter, recorded]
              by_cases hsame : SamePrice b price
              · have ha : SamePrice a price := hba.symm.trans hsame
                have hprice : KeptPrice price := hb.congr hvalues hsame
                rw [if_neg (hdiffers.not.mpr (not_not.mpr ha)), if_pos hsame,
                  List.reduceOption_cons_of_some, List.forall_mem_cons,
                  and_iff_right hprice]
                exact ih ⟨h.kept, by simpa using hsame⟩
              · have ha : ¬SamePrice a price := fun ha => hsame (hba.trans ha)
                rw [if_pos (hdiffers.mpr ha), if_neg hsame]
                exact hcons
          | none =>
              have hdiffers : Differs none price := by simp [Differs]
              rw [recorded, if_pos hdiffers, NoneReturns]
              cases last with
              | none => simpa [changesAfter] using hcons
              | some b =>
                  have hb : KeptPrice b := h.kept b rfl
                  rw [changesAfter]
                  by_cases hsame : SamePrice b price
                  · -- the price is recorded again, and whatever comes next differs
                    rw [if_pos hsame]
                    refine iff_of_false (fun hread => ?_) (by simp [hsame])
                    exact not_readAs_of_same (hb.congr hvalues hsame) hsame hread
                  · rw [if_neg hsame, hcons]
                    simp [hsame]

/-! ## Whole histories -/

structure NeverStored (id : PropertyId) (db : Store) : Prop where
  property : PropertyRepository.find id db = none
  prices : ∀ row ∈ db.prices, row.propertyId ≠ id

/--
After any sequence of calls for one property the history is the sequence of its
price changes if and only if the column keeps every known price and none of them
returns after unknown prices.
-/
theorem history_records_changes_iff (hrounds : RoundsOnce) (hvalues : RoundsValues)
    (id : PropertyId) (calls : List AddCall) (hid : ∀ call ∈ calls, call.prop.id = id)
    (db db' : Store) (hnew : NeverStored id db) (h : addAll calls db = .ok db') :
    RecordsChanges id db' (calls.map (·.prop.price)) ↔
      (∀ price ∈ (calls.map (·.prop.price)).reduceOption, KeptPrice price) ∧
        NeverReturns (calls.map (·.prop.price)) := by
  have hholds : Holds id db none := by rw [Holds, hnew.property]
  have hempty : history id db = [] := by
    rw [history, List.filter_eq_nil_iff.mpr fun row hrow => ?_]
    · rfl
    · simpa using hnew.prices row hrow
  have hrecorded : Recorded none none := ⟨by simp, by simp⟩
  have hiff := readAs_recorded_iff hvalues hrecorded (calls.map (·.prop.price))
  rw [changesAfter_none, noneReturns_none_none] at hiff
  rw [← hiff, RecordsChanges, history_addAll hrounds hid hholds h, hempty,
    List.nil_append, List.forall₂_map_left_iff, ReadAs]
  -- there is one currency, so its column determines it
  simp only

end Columns

/-! ## A price that returns -/

def hundred : Money := ⟨.ofInt 100, .eur, by decide⟩

def pricedFlat (price : Option Money) : Property :=
  { Application.freeFlat with price := price, area := none }

/-- A flat at a price, then at an unknown price, then at the old price again. -/
def returningCalls : List AddCall :=
  [⟨pricedFlat (some hundred), 0, ⟨0, 0⟩⟩, ⟨pricedFlat none, 1, ⟨0, 1⟩⟩,
    ⟨pricedFlat (some hundred), 2, ⟨0, 2⟩⟩]

def returningStore : Except PyError Store :=
  @addAll .plain returningCalls .empty

theorem length_history_returning :
    returningStore.map (fun db => (@history .plain "free" db).length) = .ok 2 := by
  decide

/-- The old price is recorded twice in a row. -/
theorem returning_price_is_recorded_twice : ¬∀ id calls db db',
    (∀ call ∈ calls, call.prop.id = id) → @NeverStored .plain id db →
      @addAll .plain calls db = .ok db' →
        @RecordsChanges .plain id db' (calls.map (·.prop.price)) := by
  intro h
  have hlength := length_history_returning
  cases hdb : returningStore with
  | error error => rw [hdb] at hlength; cases hlength
  | ok db' =>
      rw [hdb] at hlength
      have hlength : (@history .plain "free" db').length = 2 :=
        Except.ok.inj hlength
      have hrecords := h "free" returningCalls .empty db' (by decide)
        (@NeverStored.mk .plain _ _ rfl (by simp [Store.empty])) hdb
      have hchanges : (changes (returningCalls.map (·.prop.price))).length = 1 := by
        decide
      have hequal := hrecords.length_eq
      rw [hchanges, hlength] at hequal
      cases hequal

theorem history_records_changes_iff_returning : ∃ db',
    @addAll .plain returningCalls .empty = .ok db' ∧
      (@RecordsChanges .plain "free" db' (returningCalls.map (·.prop.price)) ↔
        (∀ price ∈ (returningCalls.map (·.prop.price)).reduceOption,
          @KeptPrice .plain price) ∧
        NeverReturns (returningCalls.map (·.prop.price))) := by
  refine ⟨_, rfl, ?_⟩
  exact @history_records_changes_iff .plain (fun _ _ => rfl) (fun _ _ _ h => h)
    "free" returningCalls (by decide) .empty _
    (@NeverStored.mk .plain _ _ rfl (by simp [Store.empty])) rfl

end RealEstateTracker.Persistence
