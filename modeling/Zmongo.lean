import Zmongo.Zig.Outcome
import Zmongo.Zig.Int
import Zmongo.Zig.Trace
import Zmongo.Gregorian.March
import Zmongo.Text.Decimal
import Zmongo.Datetime.Date
import Zmongo.Datetime.Time
import Zmongo.Datetime.DateTime
import Zmongo.Datetime.Compose
import Zmongo.Datetime.Decompose
import Zmongo.Datetime.Calendar
import Zmongo.Datetime.Print
import Zmongo.Datetime.RoundTrip
import Zmongo.Datetime.Bounds
import Zmongo.Datetime.Layouts
import Zmongo.Datetime.Normal
import Zmongo.Datetime.Unix
import Zmongo.Datetime.Add
import Zmongo.Datetime.TextOrder
import Zmongo.Datetime.NormalText
import Zmongo.Datetime.Json
import Zmongo.Mcd.Time
import Zmongo.Bson.Types
import Zmongo.Bson.Cmp
import Zmongo.Datetime.Stored
import Zmongo.Datetime.Errors
