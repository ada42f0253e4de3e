/-
  THE CATALOG: `packages/hetzner/src/catalog.ts` and the response schema of
  `packages/contracts/src/catalog.ts`.

  One response prices everything: the servers, their IPv4 addresses and the percentage that backups
  add.  The server types come in pages.  An offer is listed for a size and a region when there is
  exactly one server price and exactly one address price for it; its three parts are rounded up
  each for itself, so that the offer lies less than three micro-units above the exact price
  (`readHetznerCatalog_items`).

  A reply is what is left of it after its schema: none where the request failed or the reply did
  not parse.
-/
import AgentCloud.Pricing.Money

namespace AgentCloud.Pricing

open Checked Decimal

inductive Architecture where
  | x86
  | arm
  deriving DecidableEq, Repr

inductive AddressType where
  | ipv4
  | ipv6
  deriving DecidableEq, Repr

/-- `priceSchema` -/
structure Price where
  location : String
  gross : DecimalPrice

structure TypePrices where
  name : String
  prices : List Price

structure AddressPrices where
  type : AddressType
  prices : List Price

/-- `pricingSchema` -/
structure PriceList where
  currency : String
  backupPercentage : DecimalPrice
  serverTypes : List TypePrices
  primaryIps : List AddressPrices

structure TypeLocation where
  name : String
  available : Bool

/-- `serverTypeSchema` -/
structure ServerType where
  name : String
  architecture : Architecture
  cores : Nat
  memory : ℚ
  disk : Nat
  deprecated : Bool
  locations : List TypeLocation
  cores_pos : 0 < cores
  memory_pos : 0 < memory
  disk_pos : 0 < disk

/-- `pageSchema` -/
structure TypePage where
  serverTypes : List ServerType
  nextPage : Option Nat

/-- `offerConfigurationSchema` -/
structure OfferConfiguration where
  serverTypes : Size → String
  architecture : Architecture
  currency : String
  named : ∀ size, serverTypes size ≠ ""

/-- An offer of a provider that prices by account, with daily backups. -/
structure CatalogItem where
  size : Size
  region : Region
  serverType : String
  architecture : Architecture
  vcpus : Nat
  memoryGb : ℚ
  diskGb : Nat
  available : Bool
  currency : String
  serverHourlyMicros : Micros
  ipv4HourlyMicros : Micros
  backupHourlyMicros : Micros
  hourlyMicros : Micros

structure Catalog where
  currency : String
  observedAt : Instant
  expiresAt : Instant
  items : List CatalogItem

/-- `sizeSchema.options` -/
def sizes : List Size := [.small, .medium, .large]

/-- `regionSchema.options` -/
def regions : List Region := [.nbg1, .fsn1, .hel1]

def regionName : Region → String
  | .nbg1 => "nbg1"
  | .fsn1 => "fsn1"
  | .hel1 => "hel1"

/-! ## The surcharge for backups -/

/-- `BigInt(text.replace('.', ''))` -/
def digitsOf (price : DecimalPrice) : Nat := value (price.val.toList.erase '.')

/-- `text.split('.')[1]?.length ?? 0` -/
def placesOf (price : DecimalPrice) : Nat := (splitDecimal price.val.toList).2.length

def backupHourlyMicros (gross percentage : DecimalPrice) : Except Fault Micros :=
  let decimalPlaces := placesOf gross + placesOf percentage
  let numerator := digitsOf gross * digitsOf percentage * 1000000
  let denominator := 100 * 10 ^ decimalPlaces
  microsSchema (roundedUp numerator denominator)

/-- The digits of a price over its places are the price. -/
theorem digitsOf_div (price : DecimalPrice) :
    (digitsOf price : ℚ) / 10 ^ placesOf price = price.exact := by
  have hsplit := splitDecimal_eq price.decimal
  have hwhole : '.' ∉ wholeOf price.val.toList := point_notMem List.all_takeWhile
  have herase : price.val.toList.erase '.' =
      wholeOf price.val.toList ++ (restOf price.val.toList).drop 1 := by
    rcases isDecimal_shape price.decimal with ⟨hnil, htext⟩ | ⟨-, htext⟩
    · rw [hnil, List.append_nil, ← htext]
      rw [← htext] at hwhole
      exact List.erase_of_not_mem hwhole
    · conv_lhs => rw [htext]
      rw [List.erase_append_right _ hwhole, List.erase_cons_head]
  rw [digitsOf, placesOf, hsplit, herase, DecimalPrice.exact, exact_eq_div]

theorem backupHourlyMicros_eq (gross percentage : DecimalPrice) :
    backupHourlyMicros gross percentage =
      microsSchema ⌈gross.exact * (percentage.exact / 100) * 10 ^ 6⌉₊ := by
  have hceil := roundedUp_eq_ceil (n := digitsOf gross * digitsOf percentage * 1000000)
    (d := 100 * 10 ^ (placesOf gross + placesOf percentage)) (by positivity)
  have hvalue : ((digitsOf gross * digitsOf percentage * 1000000 : Nat) : ℚ) /
      (100 * 10 ^ (placesOf gross + placesOf percentage) : Nat) =
      gross.exact * (percentage.exact / 100) * 10 ^ 6 := by
    rw [← digitsOf_div gross, ← digitsOf_div percentage, pow_add]
    push_cast
    field_simp
    norm_num
  rw [hvalue] at hceil
  rw [← hceil]
  rfl

/-! ## The pages of server types -/

/-- The loop over the pages: `replies` are what the requests are answered with, one after the other.
    Beside the types come the pages asked for, the last one first. -/
def collectTypes (replies : Nat → Option TypePage) (seen : List Nat) (types : List ServerType) :
    Option Nat → List Nat × Except Fault (List ServerType)
  | none => (seen, .ok types)
  | some page =>
    if page ∈ seen ∨ 100 ≤ seen.length then
      (seen, .error (retryableError .providerUnavailable "Hetzner catalog pagination is invalid."))
    else
      match replies seen.length with
      | none => (page :: seen, .error (.other "Hetzner request failed."))
      | some result => collectTypes replies (page :: seen) (types ++ result.serverTypes) result.nextPage
termination_by 100 - seen.length
decreasing_by
  rename_i h
  simp only [List.length_cons]
  omega

/-- No page is asked for twice, and no more than a hundred are. -/
theorem collectTypes_asked (replies : Nat → Option TypePage) (seen : List Nat)
    (types : List ServerType) (page : Option Nat) (hnodup : seen.Nodup) (hle : seen.length ≤ 100) :
    (collectTypes replies seen types page).1.Nodup ∧
      (collectTypes replies seen types page).1.length ≤ 100 := by
  induction seen, types, page using collectTypes.induct replies with
  | case1 seen types =>
    rw [collectTypes]
    exact ⟨hnodup, hle⟩
  | case2 seen types page hbad =>
    rw [collectTypes, if_pos hbad]
    exact ⟨hnodup, hle⟩
  | case3 seen types page hgood hreply =>
    rw [collectTypes, if_neg hgood, hreply]
    rw [not_or] at hgood
    exact ⟨List.nodup_cons.mpr ⟨hgood.1, hnodup⟩, by simp only [List.length_cons]; omega⟩
  | case4 seen types page hgood result hreply ih =>
    rw [collectTypes, if_neg hgood, hreply]
    rw [not_or] at hgood
    exact ih (List.nodup_cons.mpr ⟨hgood.1, hnodup⟩) (by simp only [List.length_cons]; omega)

/-! ## The offers -/

/-- The offer of one size in one region, if its prices are neither missing nor ambiguous. -/
def offer (configuration : OfferConfiguration) (pricing : PriceList) (ipv4 : List AddressPrices)
    (size : Size) (type : ServerType) (entry : TypePrices) (region : Region) :
    Except Fault (List CatalogItem) :=
  let prices := entry.prices.filter fun price => price.location = regionName region
  let ipPrices := (ipv4[0]?.elim [] AddressPrices.prices).filter
    fun price => price.location = regionName region
  match prices, ipPrices with
  | [price], [ipPrice] => do
    let serverHourlyMicros ← decimalToMicros price.gross.val
    let ipv4HourlyMicros ← decimalToMicros ipPrice.gross.val
    let backupMicros ← backupHourlyMicros price.gross pricing.backupPercentage
    pure [{
      size
      region
      serverType := type.name
      architecture := type.architecture
      vcpus := type.cores
      memoryGb := type.memory
      diskGb := type.disk
      available := !type.deprecated && decide (type.architecture = configuration.architecture) &&
        type.locations.any fun location =>
          decide (location.name = regionName region) && location.available
      currency := pricing.currency
      serverHourlyMicros
      ipv4HourlyMicros
      backupHourlyMicros := backupMicros
      hourlyMicros := serverHourlyMicros + ipv4HourlyMicros + backupMicros }]
  | _, _ => pure []

/-- The offers of one size. -/
def offersOf (configuration : OfferConfiguration) (pricing : PriceList) (ipv4 : List AddressPrices)
    (types : List ServerType) (size : Size) : Except Fault (List CatalogItem) :=
  match types.find? fun type => type.name = configuration.serverTypes size with
  | none => pure []
  | some type =>
    match pricing.serverTypes.filter fun entry => entry.name = type.name with
    | [entry] => do
      let items ← checkEach (offer configuration pricing ipv4 size type entry) regions
      pure items.flatten
    | _ => pure []

/-- `catalogItemSchema` -/
def catalogItemSchema (item : CatalogItem) : Except Fault CatalogItem := do
  refuse (item.serverType = "" ∨ item.vcpus = 0 ∨ item.memoryGb ≤ 0 ∨ item.diskGb = 0)
    (.other "Too small")
  let _ ← microsSchema item.serverHourlyMicros
  let _ ← microsSchema item.ipv4HourlyMicros
  let _ ← microsSchema item.backupHourlyMicros
  let _ ← microsSchema item.hourlyMicros
  refuse (item.hourlyMicros ≠
      item.serverHourlyMicros + item.ipv4HourlyMicros + item.backupHourlyMicros)
    (.other "Hourly reservation must include the VM, IPv4 and enabled provider backups.")
  pure item

/-- `catalogResponseSchema` -/
def catalogResponseSchema (catalog : Catalog) : Except Fault Catalog := do
  let _ ← checkEach catalogItemSchema catalog.items
  refuse ((∃ item ∈ catalog.items, item.currency ≠ catalog.currency) ∨
      ¬ (catalog.items.map fun item => (item.size, item.region)).Nodup)
    (.other "Catalog currency, price basis, and offer identities must agree.")
  refuse (catalog.expiresAt ≤ catalog.observedAt) (.other "Catalog expiry must follow observation.")
  pure catalog

/-- `readHetznerCatalog`: `pricing` answers the request for prices, `replies` those for the types. -/
def readHetznerCatalog (configuration : OfferConfiguration) (observedAt : Instant)
    (pricing : Option PriceList) (replies : Nat → Option TypePage) : Except Fault Catalog := do
  let pricing ← present pricing (.other "Hetzner request failed.")
  refuse (pricing.currency ≠ configuration.currency)
    (cloudError .budgetExceeded
      "Hetzner account currency differs from the configured spending limit.")
  let types ← (collectTypes replies [] [] (some 1)).2
  refuse (¬ (types.map ServerType.name).Nodup)
    (retryableError .providerUnavailable "Hetzner catalog contains duplicate types.")
  let ipv4 := pricing.primaryIps.filter fun ip => ip.type = .ipv4
  refuse (ipv4.length ≠ 1)
    (retryableError .providerUnavailable "Hetzner did not supply unambiguous IPv4 prices.")
  let items ← checkEach (offersOf configuration pricing ipv4 types) sizes
  catalogResponseSchema
    { currency := pricing.currency
      observedAt
      expiresAt := observedAt + 300000
      items := items.flatten }

/-! ## What is listed -/

/-- The exact gross price of an hour, in micro-units: the server, its address and the surcharge that
    `percentage` of the server's price makes. -/
def exactMicros (server address percentage : DecimalPrice) : ℚ :=
  (server.exact + address.exact + server.exact * (percentage.exact / 100)) * 10 ^ 6

/-- The one server price and the one address price behind an item, and what they come to. -/
structure Priced (configuration : OfferConfiguration) (pricing : PriceList) (item : CatalogItem)
    (server address : Price) : Prop where
  configured : item.serverType = configuration.serverTypes item.size
  server_only : ∃ entry,
    pricing.serverTypes.filter (fun entry => entry.name = item.serverType) = [entry] ∧
    entry.prices.filter (fun price => price.location = regionName item.region) = [server]
  address_only : ∃ addresses,
    pricing.primaryIps.filter (fun ip => ip.type = .ipv4) = [addresses] ∧
    addresses.prices.filter (fun price => price.location = regionName item.region) = [address]
  least : exactMicros server.gross address.gross pricing.backupPercentage ≤ item.hourlyMicros
  close : (item.hourlyMicros : ℚ) <
    exactMicros server.gross address.gross pricing.backupPercentage + 3

/-- Three parts rounded up each for itself. -/
theorem ceil_add_bounds {a b c : ℚ} (ha : 0 ≤ a) (hb : 0 ≤ b) (hc : 0 ≤ c) :
    a + b + c ≤ (⌈a⌉₊ + ⌈b⌉₊ + ⌈c⌉₊ : Nat) ∧ ((⌈a⌉₊ + ⌈b⌉₊ + ⌈c⌉₊ : Nat) : ℚ) < a + b + c + 3 := by
  have la := Nat.le_ceil a
  have lb := Nat.le_ceil b
  have lc := Nat.le_ceil c
  have ua := Nat.ceil_lt_add_one ha
  have ub := Nat.ceil_lt_add_one hb
  have uc := Nat.ceil_lt_add_one hc
  push_cast
  constructor <;> linarith

theorem decimalToMicros_val {price : DecimalPrice} {micros : Micros}
    (h : decimalToMicros price.val = .ok micros) : micros = ⌈price.exact * 10 ^ 6⌉₊ := by
  obtain ⟨price', hsame, -, rfl⟩ := decimalToMicros_ok_iff.mp h
  obtain rfl : price' = price := Subtype.ext hsame
  rfl

section Offers

variable {configuration : OfferConfiguration} {pricing : PriceList} {addresses : AddressPrices}

theorem offer_priced {size : Size} {type : ServerType} {entry : TypePrices} {region : Region}
    {items : List CatalogItem}
    (h : offer configuration pricing [addresses] size type entry region = .ok items)
    (hname : type.name = configuration.serverTypes size)
    (hentry : pricing.serverTypes.filter (fun entry => entry.name = type.name) = [entry])
    (haddresses : pricing.primaryIps.filter (fun ip => ip.type = .ipv4) = [addresses]) :
    ∀ item ∈ items, ∃ server address, Priced configuration pricing item server address := by
  simp only [offer] at h
  split at h
  · rename_i server address hserver haddress
    simp only [bind_ok_iff, pure_ok_iff] at h
    obtain ⟨serverMicros, hserverMicros, addressMicros, haddressMicros, backupMicros,
      hbackupMicros, rfl⟩ := h
    rintro item (_ | ⟨_, hnone⟩)
    · rw [backupHourlyMicros_eq, microsSchema_ok_iff] at hbackupMicros
      have hs := decimalToMicros_val hserverMicros
      have ha := decimalToMicros_val haddressMicros
      have hserverNonneg := server.gross.exact_nonneg
      have haddressNonneg := address.gross.exact_nonneg
      have hpercentNonneg := pricing.backupPercentage.exact_nonneg
      obtain ⟨hlow, hhigh⟩ := ceil_add_bounds
        (a := server.gross.exact * 10 ^ 6) (b := address.gross.exact * 10 ^ 6)
        (c := server.gross.exact * (pricing.backupPercentage.exact / 100) * 10 ^ 6)
        (by positivity) (by positivity) (by positivity)
      rw [← hs, ← ha, ← hbackupMicros.2] at hlow hhigh
      have hsum : exactMicros server.gross address.gross pricing.backupPercentage =
          server.gross.exact * 10 ^ 6 + address.gross.exact * 10 ^ 6 +
            server.gross.exact * (pricing.backupPercentage.exact / 100) * 10 ^ 6 := by
        unfold exactMicros
        ring
      refine ⟨server, address, hname, ⟨entry, hentry, hserver⟩,
        ⟨addresses, haddresses, haddress⟩, ?_, ?_⟩
      · rw [hsum]
        exact hlow
      · rw [hsum]
        exact hhigh
    · cases hnone
  · obtain rfl := pure_ok_iff.mp h
    intro item hnone
    cases hnone

theorem offersOf_priced {types : List ServerType} {size : Size} {items : List CatalogItem}
    (h : offersOf configuration pricing [addresses] types size = .ok items)
    (haddresses : pricing.primaryIps.filter (fun ip => ip.type = .ipv4) = [addresses]) :
    ∀ item ∈ items, ∃ server address, Priced configuration pricing item server address := by
  simp only [offersOf] at h
  split at h
  · obtain rfl := pure_ok_iff.mp h
    intro item hnone
    cases hnone
  · rename_i type htype
    have hname : type.name = configuration.serverTypes size := by
      have := List.find?_some htype
      exact of_decide_eq_true this
    split at h
    · rename_i entry hentry
      simp only [bind_ok_iff, pure_ok_iff] at h
      obtain ⟨lists, hlists, rfl⟩ := h
      intro item hitem
      obtain ⟨list, hlist, hmem⟩ := List.mem_flatten.mp hitem
      obtain ⟨region, -, hoffer⟩ := (checkEach_ok hlists).2 list hlist
      exact offer_priced hoffer hname hentry haddresses item hmem
    · obtain rfl := pure_ok_iff.mp h
      intro item hnone
      cases hnone

end Offers

/-- Every item of a catalog is priced. -/
theorem readHetznerCatalog_items {configuration : OfferConfiguration} {observedAt : Instant}
    {pricing : PriceList} {replies : Nat → Option TypePage} {catalog : Catalog}
    (h : readHetznerCatalog configuration observedAt (some pricing) replies = .ok catalog) :
    ∀ item ∈ catalog.items, ∃ server address, Priced configuration pricing item server address := by
  simp only [readHetznerCatalog, bind_ok_iff, refuse_ok_iff, present_ok_iff] at h
  obtain ⟨pricing', heq, _, -, types, -, _, -, _, hone, lists, hlists, hresponse⟩ := h
  obtain rfl := Option.some.inj heq
  obtain ⟨addresses, haddresses⟩ := List.length_eq_one_iff.mp (not_not.mp hone)
  rw [haddresses] at hlists
  simp only [catalogResponseSchema, bind_ok_iff, refuse_ok_iff, pure_ok_iff] at hresponse
  obtain ⟨_, -, _, -, _, -, rfl⟩ := hresponse
  intro item hitem
  obtain ⟨list, hlist, hmem⟩ := List.mem_flatten.mp hitem
  obtain ⟨size, -, hoffers⟩ := (checkEach_ok hlists).2 list hlist
  exact offersOf_priced hoffers haddresses item hmem

/-- **Exact pricing.**  Text that is accepted comes to the ceiling of its value in micro-units, never
    below it and monotone in it; a limit is exact; every offer is at least the exact price and less
    than three micro-units above it, from one server price and one address price; and a listing of
    types asks for at most a hundred pages, whatever it is answered. -/
theorem exact_pricing :
    (∀ value micros, decimalToMicros value = .ok micros ↔
      ∃ price : DecimalPrice, price.val = value ∧
        ⌈price.exact * 10 ^ 6⌉₊ ≤ 2147483647 ∧ micros = ⌈price.exact * 10 ^ 6⌉₊) ∧
    (∀ (price : DecimalPrice) micros, decimalToMicros price.val = .ok micros →
      price.exact * 10 ^ 6 ≤ micros) ∧
    (∀ (price price' : DecimalPrice) micros micros', price.exact ≤ price'.exact →
      decimalToMicros price.val = .ok micros → decimalToMicros price'.val = .ok micros' →
      micros ≤ micros') ∧
    (∀ value micros, decimalLimitToMicros value = .ok micros →
      ∃ price : DecimalPrice, price.val = value ∧ (micros : ℚ) = price.exact * 10 ^ 6) ∧
    (∀ configuration observedAt pricing replies catalog,
      readHetznerCatalog configuration observedAt (some pricing) replies = .ok catalog →
      ∀ item ∈ catalog.items, ∃ server address, Priced configuration pricing item server address) ∧
    ∀ replies, (collectTypes replies [] [] (some 1)).1.length ≤ 100 := by
  refine ⟨fun _ _ => decimalToMicros_ok_iff, ?_, ?_, fun _ _ => decimalLimitToMicros_exact,
    fun _ _ _ _ _ => readHetznerCatalog_items, ?_⟩
  · intro price micros h
    rw [decimalToMicros_val h]
    exact Nat.le_ceil _
  · intro price price' micros micros' hle h h'
    rw [decimalToMicros_val h, decimalToMicros_val h']
    exact Nat.ceil_mono (by linarith)
  · intro replies
    exact (collectTypes_asked replies [] [] (some 1) List.nodup_nil (by simp)).2

namespace Demo

def price (text : String) (h : isDecimalPrice text = true) : DecimalPrice := ⟨text, h⟩

def pricing : PriceList where
  currency := "EUR"
  backupPercentage := price "20.5" (by decide)
  serverTypes := [⟨"cx23", [⟨"fsn1", price "0.00480005" (by decide)⟩]⟩]
  primaryIps := [⟨.ipv4, [⟨"fsn1", price "0.0008" (by decide)⟩]⟩, ⟨.ipv6, []⟩]

def serverType : ServerType where
  name := "cx23"
  architecture := .x86
  cores := 2
  memory := 4
  disk := 40
  deprecated := false
  locations := [⟨"fsn1", true⟩]
  cores_pos := by decide
  memory_pos := by norm_num
  disk_pos := by decide

def configuration : OfferConfiguration where
  serverTypes
    | .small => "cx23"
    | .medium => "cx33"
    | .large => "cx43"
  architecture := .x86
  currency := "EUR"
  named := by
    intro size
    cases size <;> decide

def replies (_ : Nat) : Option TypePage := some ⟨[serverType], none⟩

theorem types : collectTypes replies [] [] (some 1) = ([1], .ok [serverType]) := by
  rw [collectTypes, if_neg (by simp)]
  simp only [replies]
  rw [collectTypes]
  rfl

/-- The hourly prices that are listed. -/
def listed : Option (List Nat) :=
  (readHetznerCatalog configuration 0 (some pricing) replies).toOption.map
    fun catalog => catalog.items.map CatalogItem.hourlyMicros

/-- One offer is listed: 4801, 800 and 985 micro-units, each rounded up for itself. -/
theorem listed_eq : listed = some [6586] := by
  rw [listed, readHetznerCatalog, types]
  decide +kernel

/-- It lies above the exact price and less than three micro-units above it. -/
theorem listed_priced : ∃ catalog,
    readHetznerCatalog configuration 0 (some pricing) replies = .ok catalog ∧
    ∀ item ∈ catalog.items, ∃ server address, Priced configuration pricing item server address := by
  have h := listed_eq
  cases hcatalog : readHetznerCatalog configuration 0 (some pricing) replies with
  | error fault =>
    rw [listed, hcatalog] at h
    cases h
  | ok catalog =>
    exact ⟨catalog, rfl, exact_pricing.2.2.2.2.1 configuration 0 pricing replies catalog hcatalog⟩

end Demo

end AgentCloud.Pricing
