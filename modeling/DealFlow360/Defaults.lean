import DealFlow360.Types

/-!
# The seeded catalog

What a fresh memory store holds. The UUID literals of the seed are the numbers
below 100.

Products, warehouses, stock, policies, approval chains, role authorities and
the governance settings are those of the source's seed, with its prices and
percentages. Runs on fixed inputs in the modules about quotes start from them;
no general statement assumes them.
-/

namespace DealFlow360

def defaultCustomers : List Customer :=
  [{ id := 1, name := "Northwind Retail", email := "demo.user@example.com", tier := .standard },
   { id := 2, name := "Globex Manufacturing", email := "buying@globex.example", tier := .standard },
   { id := 3, name := "Initech Strategic", email := "deals@initech.example", tier := .standard }]

def coreGateway : Product where
  id := 11
  sku := "HW-CORE-1"
  name := "Core Gateway"
  category := "hardware"
  listPrice := 4000
  cost := 2200
  billingType := .oneTime

def edgeSensorPack : Product where
  id := 12
  sku := "HW-EDGE-2"
  name := "Edge Sensor Pack"
  category := "hardware"
  listPrice := 1500
  cost := 800
  billingType := .oneTime

def controlSuite : Product where
  id := 13
  sku := "SW-CTRL-1"
  name := "Control Suite"
  category := "software"
  listPrice := 2400
  cost := 400
  billingType := .recurring
  billingFrequency := some .monthly

def analyticsAddOn : Product where
  id := 14
  sku := "SW-ANALYTICS"
  name := "Analytics Add-on"
  category := "software"
  listPrice := 900
  cost := 150
  billingType := .recurring
  billingFrequency := some .monthly

def premiumSuccessPlan : Product where
  id := 15
  sku := "SVC-PREMIUM"
  name := "Premium Success Plan"
  category := "services"
  listPrice := 600
  cost := 120
  billingType := .recurring
  billingFrequency := some .yearly

def defaultProducts : List Product :=
  [coreGateway, edgeSensorPack, controlSuite, analyticsAddOn, premiumSuccessPlan]

def defaultWarehouses : List Warehouse :=
  [{ id := 21, name := "West DC", fulfillmentCostPerUnit := 18 },
   { id := 22, name := "East DC", fulfillmentCostPerUnit := 25 }]

def defaultStock : List StockLevel :=
  [{ warehouseId := 21, productId := 11, quantityOnHand := 4, reserved := 0, incoming := some 6 },
   { warehouseId := 22, productId := 11, quantityOnHand := 3, reserved := 0 },
   { warehouseId := 21, productId := 12, quantityOnHand := 10, reserved := 0 },
   { warehouseId := 22, productId := 12, quantityOnHand := 2, reserved := 0 },
   { warehouseId := 21, productId := 13, quantityOnHand := 50, reserved := 0 },
   { warehouseId := 22, productId := 13, quantityOnHand := 50, reserved := 0 },
   { warehouseId := 21, productId := 14, quantityOnHand := 50, reserved := 0 },
   { warehouseId := 22, productId := 14, quantityOnHand := 50, reserved := 0 },
   { warehouseId := 21, productId := 15, quantityOnHand := 20, reserved := 0 },
   { warehouseId := 22, productId := 15, quantityOnHand := 20, reserved := 0 }]

def defaultPolicies : List DiscountPolicy :=
  [{ id := some 31, name := "Platinum customer", customerTier := some .platinum
     warningPercent := 12, approvalPercent := 20, rejectPercent := 40
     maxMarginImpactPercent := 70, priority := 10 },
   { id := some 32, name := "Gold customer", customerTier := some .gold
     warningPercent := 8, approvalPercent := 12, rejectPercent := 30
     maxMarginImpactPercent := 55, priority := 20 },
   { id := some 33, name := "Software category", productCategory := some "software"
     warningPercent := 8, approvalPercent := 15, rejectPercent := 35
     maxMarginImpactPercent := 80, priority := 30 },
   { id := some 34, name := "Default ceiling"
     warningPercent := 3, approvalPercent := 5, rejectPercent := 25
     maxMarginImpactPercent := 40, priority := 100 }]

def salesManagerChain : ApprovalChain where
  id := 41
  name := "Sales Manager"
  minRiskScore := 0
  minBlendedDiscountPercent := 5
  priority := 30
  steps := [{ id := 51, chainId := 41, stepOrder := 1, roleKey := .manager, label := "Sales Manager" }]

def salesManagerFinanceChain : ApprovalChain where
  id := 42
  name := "Sales Manager → Finance"
  minRiskScore := 40
  minBlendedDiscountPercent := 12
  priority := 20
  steps :=
    [{ id := 52, chainId := 42, stepOrder := 1, roleKey := .manager, label := "Sales Manager" },
     { id := 53, chainId := 42, stepOrder := 2, roleKey := .finance, label := "Finance" }]

def salesManagerFinanceFinalChain : ApprovalChain where
  id := 43
  name := "Sales Manager → Finance → Final"
  minRiskScore := 70
  minBlendedDiscountPercent := 20
  priority := 10
  steps :=
    [{ id := 54, chainId := 43, stepOrder := 1, roleKey := .manager, label := "Sales Manager" },
     { id := 55, chainId := 43, stepOrder := 2, roleKey := .finance, label := "Finance" },
     { id := 56, chainId := 43, stepOrder := 3, roleKey := .final, label := "Final approval" }]

def defaultChains : List ApprovalChain :=
  [salesManagerChain, salesManagerFinanceChain, salesManagerFinanceFinalChain]

def defaultQuantityBreaks : List QuantityBreak :=
  [{ id := 71, name := "Core Gateway 1–9 list", productId := 11, minQuantity := 1
     maxQuantity := some 9, adjustmentKind := .fixed, adjustmentValue := 4000, active := some true },
   { id := 72, name := "Core Gateway 10–49 volume", productId := 11, minQuantity := 10
     maxQuantity := some 49, adjustmentKind := .fixed, adjustmentValue := 3700, active := some true },
   { id := 73, name := "Core Gateway 50+ contract", productId := 11, minQuantity := 50
     adjustmentKind := .fixed, adjustmentValue := 3400, active := some true },
   { id := 74, name := "Edge Sensor 10+ volume", productId := 12, minQuantity := 10
     adjustmentKind := .fixed, adjustmentValue := 1350, active := some true }]

def defaultRoleAuthorities : List RoleAuthority :=
  [{ roleKey := "staff", maxDiscountPercent := 5, minMarginPercent := 20
     maxPriceOverridePercent := 0, canNegotiate := true, exceedAction := .block },
   { roleKey := "manager", maxDiscountPercent := 10, minMarginPercent := 18
     maxPriceOverridePercent := 3, canNegotiate := true, exceedAction := .block },
   { roleKey := "finance", maxDiscountPercent := 15, minMarginPercent := 10
     maxPriceOverridePercent := 5, canNegotiate := true, exceedAction := .block }]

def defaultRelations : List ProductRelation :=
  [{ id := 61, productId := 11, recommendedProductId := 12, kind := .crossSell
     reason := "Edge sensors complete gateway deployments"
     promotion := some "Bundle 5% after add", minQuantity := 1 },
   { id := 62, productId := 13, recommendedProductId := 14, kind := .upsell
     reason := "Analytics increases recurring software attach", minQuantity := 1 }]

end DealFlow360
