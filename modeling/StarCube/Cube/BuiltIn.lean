import StarCube.Cube

/-!
The built-in cubes of the maritime procurement warehouse.
-/

namespace StarCube.BuiltIn

def currencyFormat : String := "$#,##0.00"

def countFormat : String := "#,##0"

def durationFormat : String := "#,##0.0"

def percentFormat : String := "#,##0.0%"

/-- A level that is sorted by its own column. -/
def level (name column : String) : Level :=
  ⟨name, column, none⟩

/-- A level that is sorted by a given column. -/
def sortedLevel (name column orderBy : String) : Level :=
  ⟨name, column, some orderBy⟩

def currency (name column : String) : Measure :=
  ⟨name, column, .sum, .currency, some currencyFormat⟩

def count (name column : String) (aggregation : Aggregation) : Measure :=
  ⟨name, column, aggregation, .number, some countFormat⟩

def duration (name column : String) : Measure :=
  ⟨name, column, .avg, .number, some durationFormat⟩

/-- A reference to a measure in a formula. -/
def reference (measure : String) : String :=
  "[Measures].[" ++ measure ++ "]"

/-- The share of one measure in another. -/
def share (name part whole : String) : CalculatedMember :=
  ⟨name, reference part ++ " / " ++ reference whole ++ " * 100", .percentage,
    some percentFormat⟩

def maritimeTime : Dimension where
  name := "Time"
  table := "warehouse.dim_time"
  keyColumn := "time_key"
  nameColumn := "date_actual"
  hierarchies :=
    [⟨"Calendar",
      [level "Year" "year", sortedLevel "Quarter" "quarter" "quarter",
       sortedLevel "Month" "month_name" "month", level "Date" "date_actual"]⟩,
     ⟨"Fiscal",
      [level "FiscalYear" "fiscal_year",
       sortedLevel "FiscalQuarter" "fiscal_quarter" "fiscal_quarter",
       sortedLevel "Month" "month_name" "month"]⟩]
  attributes :=
    [⟨"DayOfWeek", "day_of_week", .number⟩, ⟨"IsWeekend", "is_weekend", .boolean⟩,
     ⟨"IsHoliday", "is_holiday", .boolean⟩]

def maritimeVessel : Dimension where
  name := "Vessel"
  table := "warehouse.dim_vessel"
  keyColumn := "vessel_key"
  nameColumn := "vessel_name"
  hierarchies :=
    [⟨"VesselHierarchy",
      [level "VesselType" "vessel_type", level "Flag" "flag", level "Vessel" "vessel_name"]⟩]
  attributes :=
    [⟨"IMONumber", "imo_number", .string⟩, ⟨"EngineType", "engine_type", .string⟩,
     ⟨"CargoCapacity", "cargo_capacity", .number⟩,
     ⟨"FuelConsumption", "fuel_consumption", .number⟩,
     ⟨"CrewComplement", "crew_complement", .number⟩]

def vendor : Dimension where
  name := "Vendor"
  table := "warehouse.dim_vendor"
  keyColumn := "vendor_key"
  nameColumn := "vendor_name"
  hierarchies :=
    [⟨"Geography",
      [level "Country" "country", level "City" "city", level "Vendor" "vendor_name"]⟩,
     ⟨"VendorType", [level "VendorType" "vendor_type", level "Vendor" "vendor_name"]⟩]
  attributes :=
    [⟨"VendorCode", "vendor_code", .string⟩, ⟨"PaymentTerms", "payment_terms", .string⟩,
     ⟨"CreditLimit", "credit_limit", .number⟩, ⟨"QualityRating", "quality_rating", .number⟩,
     ⟨"DeliveryRating", "delivery_rating", .number⟩,
     ⟨"OverallScore", "overall_score", .number⟩]

def category : Dimension where
  name := "Category"
  table := "warehouse.dim_category"
  keyColumn := "category_key"
  nameColumn := "category_name"
  hierarchies :=
    [⟨"CategoryHierarchy",
      [level "Level1" "category_level", level "Category" "category_name"]⟩]
  attributes :=
    [⟨"IMPACode", "impa_code", .string⟩, ⟨"ISSACode", "issa_code", .string⟩,
     ⟨"CriticalityLevel", "criticality_level", .string⟩]

def geography : Dimension where
  name := "Geography"
  table := "warehouse.dim_geography"
  keyColumn := "geography_key"
  nameColumn := "port_name"
  hierarchies :=
    [⟨"Geographic",
      [level "Continent" "continent", level "Region" "region", level "Country" "country",
       level "City" "city", level "Port" "port_name"]⟩]
  attributes :=
    [⟨"PortCode", "port_code", .string⟩, ⟨"Latitude", "latitude", .number⟩,
     ⟨"Longitude", "longitude", .number⟩, ⟨"TimeZone", "time_zone", .string⟩]

/-- Facts from requisition to payment by time, vessel, vendor, category and port. -/
def maritimeProcurement : Cube where
  name := "MaritimeProcurement"
  description := "Maritime procurement analytics cube"
  factTable := "warehouse.fact_procurement"
  dimensions := [maritimeTime, maritimeVessel, vendor, category, geography]
  measures :=
    [currency "RequisitionAmount" "requisition_amount", currency "POAmount" "po_amount",
     currency "InvoiceAmount" "invoice_amount", currency "PaidAmount" "paid_amount",
     count "QuantityRequested" "quantity_requested" .sum,
     count "QuantityOrdered" "quantity_ordered" .sum,
     count "QuantityDelivered" "quantity_delivered" .sum,
     duration "ApprovalCycleTime" "approval_cycle_time",
     duration "ProcurementCycleTime" "procurement_cycle_time",
     duration "DeliveryCycleTime" "delivery_cycle_time",
     duration "PaymentCycleTime" "payment_cycle_time",
     count "TransactionCount" "procurement_key" .count,
     count "EmergencyCount" "is_emergency" .sum,
     count "OnTimeDeliveryCount" "is_on_time" .sum]
  calculatedMembers :=
    [⟨"AverageOrderValue", reference "POAmount" ++ " / " ++ reference "TransactionCount",
      .currency, some currencyFormat⟩,
     share "DeliveryEfficiency" "OnTimeDeliveryCount" "TransactionCount",
     share "EmergencyRate" "EmergencyCount" "TransactionCount",
     share "FulfillmentRate" "QuantityDelivered" "QuantityOrdered",
     ⟨"BudgetVariance",
      "(" ++ reference "POAmount" ++ " - " ++ reference "RequisitionAmount" ++ ") / " ++
        reference "RequisitionAmount" ++ " * 100", .percentage, some percentFormat⟩]

def spendTime : Dimension where
  name := "Time"
  table := "warehouse.dim_time"
  keyColumn := "time_key"
  nameColumn := "date_actual"
  hierarchies :=
    [⟨"Calendar",
      [level "Year" "year", level "Quarter" "quarter", level "Month" "month_name"]⟩]
  attributes := []

def spendVessel : Dimension where
  name := "Vessel"
  table := "warehouse.dim_vessel"
  keyColumn := "vessel_key"
  nameColumn := "vessel_name"
  hierarchies :=
    [⟨"VesselHierarchy", [level "VesselType" "vessel_type", level "Vessel" "vessel_name"]⟩]
  attributes := []

def spendCurrency : Dimension where
  name := "Currency"
  table := "warehouse.dim_currency"
  keyColumn := "currency_key"
  nameColumn := "currency_name"
  hierarchies := [⟨"CurrencyHierarchy", [level "Currency" "currency_name"]⟩]
  attributes :=
    [⟨"CurrencyCode", "currency_code", .string⟩, ⟨"Symbol", "symbol", .string⟩]

/-- Spend in several currencies by time, vessel and currency. -/
def spendAnalysis : Cube where
  name := "SpendAnalysis"
  description := "Financial spend analysis cube"
  factTable := "warehouse.fact_spend"
  dimensions := [spendTime, spendVessel, spendCurrency]
  measures :=
    [currency "GrossAmount" "gross_amount", currency "NetAmount" "net_amount",
     currency "USDAmount" "usd_amount", currency "DiscountAmount" "discount_amount",
     currency "TaxAmount" "tax_amount"]
  calculatedMembers :=
    [share "DiscountRate" "DiscountAmount" "GrossAmount",
     share "TaxRate" "TaxAmount" "NetAmount"]

/-- The built-in cubes in the order in which they are registered. -/
def cubes : List Cube :=
  [maritimeProcurement, spendAnalysis]

end StarCube.BuiltIn
