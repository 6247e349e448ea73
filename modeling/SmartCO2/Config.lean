import SmartCO2.Library.CString

/-!
# Configuration

The constants of `config_.h` and `config_.c` that the modelled functions use.
-/

namespace SmartCO2

/-- `APP_MESSAGE_MAX_LEN` -/
def appMessageMaxLen : ℕ := 1024

/-- `APP_SERVICE_NAME` -/
def appServiceName : List UInt8 := ascii "_ca-thingsboard-coap._udp.default.service.arpa"

/-- `APP_SERVICE_PORT` -/
def appServicePort : UInt16 := 5683

/-- `APP_URI_TEMPLATE`, with the token in the place of `%s`. -/
def appUriTemplate (token : List UInt8) : List UInt8 :=
  ascii "api/v1/" ++ token ++ ascii "/telemetry"

/-- The conversion `%.2f` of a whole number. -/
def fixed2 (n : ℤ) : List UInt8 := ascii (toString n ++ ".00")

/-- `APP_MESSAGE_TEMPLATE`, rendered with whole numbers. -/
def appMessageTemplate (co2 rh temp : ℤ) : List UInt8 :=
  ascii "\x7b\"co2\": " ++ fixed2 co2 ++ ascii ", \"rh\": " ++ fixed2 rh ++
    ascii ", \"temp\": " ++ fixed2 temp ++ ascii "\x7d"

/-- `APP_TOKEN` -/
def appToken : List UInt8 := ascii "OvJF32PFX97lwCx7Z26u"

end SmartCO2
